import Mathlib.Data.List.Induction

/-!
# Computations whose calls are recorded

A computation calls effects that it knows nothing about. Every call is recorded with its
answer, so that what was called, and what had been answered before, are facts about the
record.
-/

namespace CallLedger

variable {ω ε α β : Type}

/-- The outside world and the calls made so far. -/
structure Books (ω ε : Type) where
  world : ω
  calls : List ε

abbrev Logged (ω ε α : Type) := StateM (Books ω ε) α

/-- An effect called, and recorded with what it answered. -/
def call (effect : StateM ω α) (event : α → ε) : Logged ω ε α := fun books =>
  ((effect books.world).1, ⟨(effect books.world).2, books.calls ++ [event (effect books.world).1]⟩)

/-! ## What a computation ensures -/

/-- Whatever the world does, the value and the record end so. -/
def Ensures (computation : Logged ω ε α) (calls : List ε) (post : α → List ε → Prop) : Prop :=
  ∀ world, post (computation ⟨world, calls⟩).1 (computation ⟨world, calls⟩).2.calls

variable {calls : List ε} {post : α → List ε → Prop}

theorem ensures_pure {a : α} (h : post a calls) : Ensures (pure a : Logged ω ε α) calls post := fun _ => h

theorem ensures_call {effect : StateM ω α} {event : α → ε} (h : ∀ a, post a (calls ++ [event a])) :
    Ensures (call effect event) calls post := fun _ => h _

theorem ensures_bind {first : Logged ω ε β} {next : β → Logged ω ε α}
    (h : Ensures first calls fun b calls => Ensures (next b) calls post) : Ensures (first >>= next) calls post :=
  fun world => h world (first ⟨world, calls⟩).2.world

theorem Ensures.mono {computation : Logged ω ε α} {weaker : α → List ε → Prop} (h : Ensures computation calls post)
    (hpost : ∀ a calls, post a calls → weaker a calls) : Ensures computation calls weaker :=
  fun world => hpost _ _ (h world)

/-- A loop keeps what each of its steps keeps. -/
theorem ensures_foldlM {step : β → α → Logged ω ε β} {holds : List α → β → List ε → Prop} {items : List α} {start : β}
    (hstart : holds [] start calls)
    (hstep : ∀ earlier item later, items = earlier ++ item :: later → ∀ b calls, holds earlier b calls →
      Ensures (step b item) calls (holds (earlier ++ [item]))) :
    Ensures (items.foldlM step start) calls (holds items) := by
  suffices h : ∀ rest earlier b calls, items = earlier ++ rest → holds earlier b calls →
      Ensures (rest.foldlM step b) calls (holds items) from h items [] start calls rfl hstart
  intro rest
  induction rest with
  | nil =>
      intro earlier b calls hitems hb
      rw [List.append_nil] at hitems
      subst hitems
      exact ensures_pure hb
  | cons item later ih =>
      intro earlier b calls hitems hb
      rw [List.foldlM_cons]
      refine ensures_bind ((hstep earlier item later hitems b calls hb).mono fun b calls hb => ?_)
      exact ih (earlier ++ [item]) b calls (by rw [hitems, List.append_assoc, List.singleton_append]) hb

/-! ## Calls that those before them justify -/

/-- Every call is justified by the calls before it. -/
def Justified (justifies : List ε → ε → Prop) (calls : List ε) : Prop :=
  ∀ before event after, calls = before ++ event :: after → justifies before event

variable {justifies : List ε → ε → Prop}

theorem Justified.nil : Justified justifies ([] : List ε) := by
  intro before event after h
  exact absurd h.symm (by simp)

theorem Justified.snoc {event : ε} (h : Justified justifies calls) (hevent : justifies calls event) :
    Justified justifies (calls ++ [event]) := by
  intro before other after hsplit
  rcases List.eq_nil_or_concat after with rfl | ⟨rest, last, rfl⟩
  · obtain ⟨rfl, hlast⟩ := List.append_inj' hsplit rfl
    obtain rfl := List.singleton_inj.mp hlast
    exact hevent
  · rw [List.concat_eq_append, ← List.cons_append, ← List.append_assoc] at hsplit
    obtain ⟨hcalls, _⟩ := List.append_inj' hsplit rfl
    exact h before other rest hcalls

/-- What was called is justified by a part of the record that is no longer. -/
theorem Justified.of_mem {event : ε} (h : Justified justifies calls) (hmem : event ∈ calls) :
    ∃ before, before <+: calls ∧ justifies before event := by
  obtain ⟨before, after, rfl⟩ := List.append_of_mem hmem
  exact ⟨before, List.prefix_append before _, h before event after rfl⟩

theorem Justified.of_prefix {before : List ε} (h : Justified justifies calls) ( hprefix : before <+: calls) :
    Justified justifies before := by
  obtain ⟨rest, rfl⟩ := hprefix
  intro earlier event after hsplit
  exact h earlier event (after ++ rest) (by rw [hsplit, List.append_assoc, List.cons_append])

/-- A call that may come only once is made at most once. -/
theorem Justified.at_most_once {once : ε → Bool} (h : Justified justifies calls)
    (honce : ∀ before event, justifies before event → once event = true → ∀ other ∈ before, once other = false) :
    (calls.filter once).length ≤ 1 := by
  induction calls using List.reverseRecOn with
  | nil => simp
  | append_singleton before event ih =>
      have hbefore := ih (h.of_prefix (List.prefix_append before [event]))
      rw [List.filter_append, List.length_append]
      cases hevent : once event with
      | false => simpa [hevent] using hbefore
      | true =>
          have hnone : before.filter once = [] := by
            rw [List.filter_eq_nil_iff]
            intro other hother
            simp [honce before event (h before event [] rfl) hevent other hother]
          simp [hnone, hevent]

end CallLedger
