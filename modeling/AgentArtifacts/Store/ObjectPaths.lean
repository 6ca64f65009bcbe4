import AgentArtifacts.Installation.Consent
import AgentArtifacts.InstallState.ManifestParts

/-!
# Paths of objects

A path is canonical when its parts are safe and its text is in normal form and names
no drive. The directories above a canonical path are canonical too, as long as a text
in normal form has prefixes in normal form.
-/

namespace AgentArtifacts

/-! ## Ancestors -/

theorem mem_properAncestors {path ancestor : SafeRelativePath} :
    ancestor ∈ properAncestors path ↔
      ∃ n, 0 < n ∧ n < path.parts.length ∧ ancestor = ⟨path.parts.take n⟩ := by
  simp only [properAncestors, List.mem_filterMap, List.mem_range]
  constructor
  · rintro ⟨n, hn, h⟩
    split at h
    · exact absurd h (by simp)
    · exact ⟨n, by omega, hn, (Option.some.inj h).symm⟩
  · rintro ⟨n, hpos, hn, rfl⟩
    exact ⟨n, hn, by rw [if_neg (by omega)]⟩

theorem properAncestors_trans {path ancestor above : SafeRelativePath} (h : ancestor ∈ properAncestors path)
    (habove : above ∈ properAncestors ancestor) : above ∈ properAncestors path := by
  obtain ⟨n, _, hn, rfl⟩ := mem_properAncestors.mp h
  obtain ⟨m, hm, hlt, rfl⟩ := mem_properAncestors.mp habove
  rw [List.length_take] at hlt
  refine mem_properAncestors.mpr ⟨m, hm, by omega, ?_⟩
  rw [List.take_take, min_eq_left (by omega)]

theorem length_lt_of_properAncestor {path ancestor : SafeRelativePath} (h : ancestor ∈ properAncestors path) :
    ancestor.parts.length < path.parts.length := by
  obtain ⟨n, _, hn, rfl⟩ := mem_properAncestors.mp h
  rw [List.length_take]
  omega

theorem not_mem_properAncestors_self (path : SafeRelativePath) : path ∉ properAncestors path :=
  fun h => absurd (length_lt_of_properAncestor h) (by omega)

/-! ## Safe parts -/

def controlChar (c : Char) : Bool := c.toNat < 32 || c.toNat == 127

/-- What a path may have between its slashes. -/
structure SafePart (part : String) : Prop where
  nonempty : part ≠ ""
  notDot : part ≠ "."
  notDotDot : part ≠ ".."
  slash : '/' ∉ part.toList
  backslash : '\\' ∉ part.toList
  control : ∀ c ∈ part.toList, controlChar c = false

theorem mem_slashJoin {parts : List String} {c : Char} (h : c ∈ (slashJoin parts).toList) :
    c = '/' ∨ ∃ part ∈ parts, c ∈ part.toList := by
  rw [slashJoin_toList] at h
  rcases mem_intercalate h with rfl | ⟨chars, hchars, hc⟩
  · exact Or.inl rfl
  · obtain ⟨part, hpart, rfl⟩ := List.mem_map.mp hchars
    exact Or.inr ⟨part, hpart, hc⟩

/-- What stands between the marks of a text is part of the text and has no mark. -/
theorem chars_of_mem_splitOn {mark : Char} {text part : List Char} (h : part ∈ text.splitOn mark) :
    mark ∉ part ∧ ∀ c ∈ part, c ∈ text := by
  induction text generalizing part with
  | nil =>
      rw [List.splitOn_nil, List.mem_singleton] at h
      simp [h]
  | cons c rest ih =>
      rw [List.splitOn_cons_eq_if_modifyHead] at h
      split at h
      · rcases List.mem_cons.mp h with rfl | h
        · simp
        · exact ⟨(ih h).1, fun d hd => List.mem_cons_of_mem _ ((ih h).2 d hd)⟩
      · rename_i hmark
        cases hsplit : rest.splitOn mark with
        | nil => exact absurd hsplit (List.splitOn_ne_nil mark rest)
        | cons first others =>
            rw [hsplit, List.modifyHead_cons] at h
            rcases List.mem_cons.mp h with rfl | h
            · have hfirst := ih (by rw [hsplit]; exact List.mem_cons_self : first ∈ rest.splitOn mark)
              refine ⟨?_, ?_⟩
              · intro hmem
                rcases List.mem_cons.mp hmem with rfl | hmem
                · exact hmark (by simp)
                · exact hfirst.1 hmem
              · intro d hd
                rcases List.mem_cons.mp hd with rfl | hd
                · exact List.mem_cons_self
                · exact List.mem_cons_of_mem _ (hfirst.2 d hd)
            · have hother := ih (by rw [hsplit]; exact List.mem_cons_of_mem _ h : part ∈ rest.splitOn mark)
              exact ⟨hother.1, fun d hd => List.mem_cons_of_mem _ (hother.2 d hd)⟩

theorem pyIn_single {c : Char} {text : String} (h : pyIn (String.ofList [c]) text = false) : c ∉ text.toList := by
  intro hc
  have hinfix : [c] <:+: text.toList := by
    obtain ⟨before, after, hsplit⟩ := List.append_of_mem hc
    exact ⟨before, after, by rw [hsplit]; simp⟩
  have hnone : Text.partition? [c] text.toList = none := by
    rw [pyIn, String.toList_ofList, Text.contains, Option.isSome_eq_false_iff, Option.isNone_iff_eq_none] at h
    exact h
  exact Text.partition?_eq_none_iff.mp hnone hinfix

section Canonical

variable [StandardLibrary]

/-! ## Canonical paths -/

theorem canonical_iff {path : SafeRelativePath} :
    Canonical path ↔ path.parts ≠ [] ∧ (∀ part ∈ path.parts, SafePart part) ∧
      StandardLibrary.isNfc path.str = true ∧ hasWindowsDrive path.str = false := by
  unfold Canonical parseRelativePath
  constructor
  · intro h
    split at h
    · exact absurd h (by simp [invalidPath, error])
    split at h
    · exact absurd h (by simp [invalidPath, error])
    rename_i hnfc
    split at h
    · exact absurd h (by simp [invalidPath, error])
    rename_i habs
    split at h
    · exact absurd h (by simp [invalidPath, error])
    rename_i hslash
    split at h
    · exact absurd h (by simp [invalidPath, error])
    rename_i hcontrol
    dsimp only at h
    split at h
    · exact absurd h (by simp [invalidPath, error])
    rename_i hempty
    split at h
    · exact absurd h (by simp [invalidPath, error])
    rename_i hdots
    have hparts : splitChar '/' path.str = path.parts := congrArg SafeRelativePath.parts (Except.ok.inj h)
    rw [hparts] at hempty hdots
    simp only [List.any_eq_true, beq_iff_eq, Bool.or_eq_true, not_exists, not_and, not_or] at hempty hdots
    refine ⟨?_, ?_, by simpa using hnfc, by simpa using (not_or.mp habs).2⟩
    · rw [← hparts, splitChar]
      simp [List.splitOn_ne_nil]
    · intro part hpart
      have hmem := hpart
      rw [← hparts, splitChar, List.mem_map] at hmem
      obtain ⟨chars, hchars, rfl⟩ := hmem
      obtain ⟨hno, hsub⟩ := chars_of_mem_splitOn hchars
      have hback : '\\' ∉ path.str.toList := pyIn_single (by simpa using hslash)
      refine ⟨hempty _ hpart, (hdots _ hpart).1, (hdots _ hpart).2, ?_, ?_, ?_⟩
      · simpa using hno
      · simpa using fun hc => hback (hsub _ hc)
      · intro c hc
        have hfree := hcontrol
        simp only [List.any_eq_true, not_exists, not_and, Bool.not_eq_true] at hfree
        exact hfree c (hsub c (by simpa using hc))
  · rintro ⟨hne, hsafe, hnfc, hdrive⟩
    have hsplit : splitChar '/' path.str = path.parts := Manifest.splitChar_slashJoin (fun part h => (hsafe part h).slash) hne
    obtain ⟨first, rest, hform⟩ := List.exists_cons_of_ne_nil hne
    have hfirst := hsafe first (by rw [hform]; exact List.mem_cons_self)
    obtain ⟨c, more, hchars⟩ := List.exists_cons_of_ne_nil (fun h => hfirst.nonempty (String.toList_inj.mp h) : first.toList ≠ [])
    obtain ⟨tail, htail⟩ : ∃ tail, path.str.toList = c :: tail := by
      rw [SafeRelativePath.str, hform, slashJoin_toList, List.map_cons, hchars]
      cases rest with
      | nil => exact ⟨more, by simp⟩
      | cons next others => exact ⟨_, by rw [List.map_cons, List.intercalate_cons_cons]; rfl⟩
    have hc : c ≠ '/' := fun h => hfirst.slash (by rw [hchars, h]; exact List.mem_cons_self)
    have hchar {d : Char} (hd : d ∈ path.str.toList) : d = '/' ∨ ∃ part ∈ path.parts, d ∈ part.toList :=
      mem_slashJoin hd
    have hempty : path.str ≠ "" := fun h => by
      rw [h] at htail
      exact absurd htail (by simp)
    have habs : isAbs path.str = false := by
      rw [isAbs, startsWith, htail]
      simpa [List.isPrefixOf] using Ne.symm hc
    have hback : pyIn "\\" path.str = false := by
      refine Manifest.pyIn_eq_false (by simp : '\\' ∈ "\\".toList) fun h => ?_
      rcases hchar h with h | ⟨part, hpart, hmem⟩
      · exact absurd h (by decide)
      · exact (hsafe part hpart).backslash hmem
    have hcontrol : path.str.toList.any (fun c => c.toNat < 32 || c.toNat == 127) = false := by
      rw [List.any_eq_false]
      intro d hd
      rcases hchar hd with rfl | ⟨part, hpart, hmem⟩
      · decide
      · have hfree := (hsafe part hpart).control d hmem
        simp only [controlChar] at hfree
        simp [hfree]
    have hnotEmpty : path.parts.any (· == "") = false := by
      rw [List.any_eq_false]
      intro part hpart
      simpa using (hsafe part hpart).nonempty
    have hnotDots : path.parts.any (fun part => part == "." || part == "..") = false := by
      rw [List.any_eq_false]
      intro part hpart
      simpa using ⟨(hsafe part hpart).notDot, (hsafe part hpart).notDotDot⟩
    simp [hempty, hnfc, habs, hdrive, hback, hcontrol, hsplit, hnotEmpty, hnotDots]

/-- A prefix of a text in normal form is in normal form, as Unicode has it. -/
def NfcPrefixes : Prop := ∀ a b : String, StandardLibrary.isNfc (a ++ b) = true → StandardLibrary.isNfc a = true

theorem canonical_of_ancestor (hnfc : NfcPrefixes) {path ancestor : SafeRelativePath} (h : Canonical path)
    (hancestor : ancestor ∈ properAncestors path) : Canonical ancestor := by
  obtain ⟨hne, hsafe, hform, hdrive⟩ := canonical_iff.mp h
  obtain ⟨n, hpos, hn, rfl⟩ := mem_properAncestors.mp hancestor
  have htake : path.parts.take n ≠ [] := by
    intro hnil
    have hlength := congrArg List.length hnil
    rw [List.length_take, List.length_nil] at hlength
    omega
  have hdrop : path.parts.drop n ≠ [] := by
    intro hnil
    have hlength := congrArg List.length hnil
    rw [List.length_drop, List.length_nil] at hlength
    omega
  have hsplit : path.str = (⟨path.parts.take n⟩ : SafeRelativePath).str ++ ("/" ++ slashJoin (path.parts.drop n)) := by
    rw [SafeRelativePath.str, SafeRelativePath.str, ← String.append_assoc, slashJoin, slashJoin, slashJoin,
      ← String.intercalate_append_of_ne_nil htake hdrop, List.take_append_drop]
  refine canonical_iff.mpr ⟨htake, fun part hpart => hsafe part (List.mem_of_mem_take hpart), ?_, ?_⟩
  · rw [hsplit] at hform
    exact hnfc _ _ hform
  · have hlist : path.str.toList =
        (⟨path.parts.take n⟩ : SafeRelativePath).str.toList ++ '/' :: (slashJoin (path.parts.drop n)).toList := by
      rw [hsplit]
      simp
    revert hdrive
    unfold hasWindowsDrive
    rw [hlist]
    -- a drive before the slash is a drive of the whole path
    generalize (⟨path.parts.take n⟩ : SafeRelativePath).str.toList = front
    intro hdrive
    split
    · simpa using hdrive
    · simpa using hdrive
    · rfl

end Canonical

end AgentArtifacts
