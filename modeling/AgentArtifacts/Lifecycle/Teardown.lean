import AgentArtifacts.Lifecycle.Model
import AgentArtifacts.Installation.Destinations

/-!
# What an uninstall tears down

A normal destination below a root is the root, a slash and plain parts, so the ancestors that a
teardown names are the root followed by two parts or more, and the destination descends from each
of them. A path has more slashes than those it descends from, which is the order of the list. Only
the root `//` is no such root: there the first level is named too.
-/

namespace AgentArtifacts

/-! ## Descent -/

/-- At least that many levels below a directory. -/
def Descends (levels : Nat) (directory path : String) : Prop :=
  ∃ parts, levels ≤ parts.length ∧ (∀ part ∈ parts, PlainPart part) ∧ path = below directory parts

theorem isAbs_plain {part : String} (h : PlainPart part) : isAbs part = false := by
  rw [isAbs, Bool.eq_false_iff]
  intro habs
  obtain ⟨rest, hrest⟩ := List.isPrefixOf_iff_prefix.mp habs
  apply h.slash
  rw [← hrest]
  exact List.mem_append_left _ (by decide)

variable {parts : List String}

theorem below_not_ends (root : String) (hne : parts ≠ [])
    (hplain : ∀ part ∈ parts, PlainPart part) : endsWith "/" (below root parts) = false :=
  slashJoin_not_ends hne hplain _

variable {root : String}

theorem below_ne_empty (hne : parts ≠ [])
    (hplain : ∀ part ∈ parts, PlainPart part) : below root parts ≠ "" := by
  intro hempty
  obtain ⟨c, rest, hchars, _⟩ := slashJoin_first hne hplain
  have hlist := congrArg String.toList hempty
  rw [below, String.toList_append, hchars] at hlist
  simp at hlist

theorem below_append {left right : List String} (hleft : left ≠ []) (hright : right ≠ [])
    (hplain : ∀ part ∈ left, PlainPart part) : below root (left ++ right) = below (below root left) right := by
  have hends := below_not_ends root hleft hplain
  rw [below, below, hends, below, slashJoin_append hleft hright]
  simp [String.append_assoc]

/-- Joining plain parts one after the other. -/
theorem foldl_joinPath (hroot : root ≠ "") (hne : parts ≠ [])
    (hplain : ∀ part ∈ parts, PlainPart part) : parts.foldl joinPath root = below root parts := by
  induction parts generalizing root with
  | nil => exact absurd rfl hne
  | cons part rest ih =>
      obtain ⟨hpart, hrest⟩ := List.forall_mem_cons.mp hplain
      have hone : joinPath root part = below root [part] := by
        have hcase : ¬ (isAbs part = true ∨ root = "") := by simp [isAbs_plain hpart, hroot]
        rw [joinPath, if_neg hcase, below]
        split <;> simp [slashJoin]
      have hplainOne : ∀ other ∈ [part], PlainPart other := by simpa using hpart
      rw [List.foldl_cons, hone]
      by_cases hnil : rest = []
      · rw [hnil]
        rfl
      · rw [ih (below_ne_empty (by simp) hplainOne) hnil hrest, ← below_append (by simp) hnil hplainOne]
        rfl

/-! ## Slashes -/

theorem slashes_append (left right : String) : slashes (left ++ right) = slashes left + slashes right := by
  rw [slashes, String.toList_append, List.count_append]
  rfl

theorem slashes_slashJoin (hplain : ∀ part ∈ parts, PlainPart part) :
    slashes (slashJoin parts) = parts.length - 1 := by
  induction parts with
  | nil => rfl
  | cons part rest ih =>
      obtain ⟨hpart, hrest⟩ := List.forall_mem_cons.mp hplain
      have hnone : slashes part = 0 := List.count_eq_zero.mpr hpart.slash
      by_cases hnil : rest = []
      · subst hnil
        simpa [slashJoin] using hnone
      · have hcons : slashJoin (part :: rest) = slashJoin [part] ++ "/" ++ slashJoin rest := by
          rw [← slashJoin_append (List.cons_ne_nil part []) hnil]
          rfl
        have hsingle : slashJoin [part] = part := by simp [slashJoin]
        have hslash : slashes "/" = 1 := by decide
        have hlength : 0 < rest.length := List.length_pos_iff.mpr hnil
        rw [hcons, slashes_append, slashes_append, hsingle, hnone, hslash, ih hrest, List.length_cons]
        omega

theorem slashes_absoluteText (count : Nat) (hplain : ∀ part ∈ parts, PlainPart part) :
    slashes (absoluteText count parts) = count + (parts.length - 1) := by
  rw [absoluteText, slashes_append, slashes_slashJoin hplain, slashes, String.toList_ofList, List.count_replicate_self]

/-- What descends from a directory has more slashes. -/
theorem slashes_lt_of_descends {directory path : String} (hends : endsWith "/" directory = false)
    (h : Descends 1 directory path) : slashes directory < slashes path := by
  obtain ⟨parts, hlength, hplain, rfl⟩ := h
  have hslash : slashes "/" = 1 := by decide
  rw [below, hends, if_neg (by decide), slashes_append, slashes_append, hslash]
  omega

/-! ## Depth order -/

instance : Std.Total deeperFirst where
  total a b := by
    rcases Nat.lt_trichotomy (slashes a) (slashes b) with hlt | heq | hgt
    · exact Or.inr (Or.inl hlt)
    · rcases String.le_total a b with hle | hle
      · exact Or.inl (Or.inr ⟨heq, hle⟩)
      · exact Or.inr (Or.inr ⟨heq.symm, hle⟩)
    · exact Or.inl (Or.inl hgt)

instance : IsTrans String deeperFirst where
  trans a b c hab hbc := by
    rcases hab with hab | ⟨hab, hle⟩
    · rcases hbc with hbc | ⟨hbc, _⟩
      · exact Or.inl (by omega)
      · exact Or.inl (by omega)
    · rcases hbc with hbc | ⟨hbc, hle'⟩
      · exact Or.inl (by omega)
      · exact Or.inr ⟨by omega, String.le_trans hle hle'⟩

/-- A directory listed before another is no ancestor of it. -/
theorem not_descends_of_deeperFirst {earlier later : String} (hends : endsWith "/" earlier = false)
    (h : deeperFirst earlier later) : ¬ Descends 1 earlier later := by
  intro hdescends
  have hlt := slashes_lt_of_descends hends hdescends
  rcases h with h | ⟨h, _⟩
  · omega
  · omega

/-! ## Ancestors -/

theorem splitChar_slash (left right : String) :
    splitChar '/' (left ++ "/" ++ right) = splitChar '/' left ++ splitChar '/' right := by
  have hparts : ∀ part ∈ splitChar '/' left ++ splitChar '/' right, '/' ∉ part.toList := by
    intro part hpart
    rcases List.mem_append.mp hpart with hpart | hpart
    · exact slash_notMem_splitChar hpart
    · exact slash_notMem_splitChar hpart
  apply slashJoin_injective (fun part hpart => slash_notMem_splitChar hpart) hparts (splitChar_ne_nil _)
  · exact List.append_ne_nil_of_left_ne_nil (splitChar_ne_nil left) _
  · rw [slashJoin_append (splitChar_ne_nil left) (splitChar_ne_nil right), Manifest.slashJoin_splitChar,
      Manifest.slashJoin_splitChar, Manifest.slashJoin_splitChar]

/-- Blank components stand only at the head of a normal path. -/
theorem splitChar_normal {path : String} (h : isNormalized path = true) :
    ∃ count parts, (count = 1 ∨ count = 2) ∧ (∀ part ∈ parts, PlainPart part) ∧ path = absoluteText count parts ∧
      (splitChar '/' path).dropWhile (· == "") = parts := by
  simp only [isNormalized, Bool.and_eq_true, beq_iff_eq, bne_iff_ne] at h
  obtain ⟨count, parts, hcount, hplain, hpath⟩ := absoluteText_of_normal h.1.1 h.1.2
  refine ⟨count, parts, hcount, hplain, hpath, ?_⟩
  by_cases hnil : parts = []
  · subst hnil
    rw [hpath]
    rcases hcount with rfl | rfl <;> decide
  · obtain ⟨first, rest, rfl⟩ := List.exists_cons_of_ne_nil hnil
    have hfirst : first ≠ "" := (hplain first List.mem_cons_self).nonempty
    rw [hpath, splitChar_absoluteText hnil hplain]
    rcases hcount with rfl | rfl
    · simp [hfirst, List.replicate_succ]
    · simp [hfirst, List.replicate_succ]

theorem mem_prunableAncestors {destination root directory : String} :
    directory ∈ prunableAncestors destination root ↔
      ∃ tail, destination = pyRstrip '/' root ++ "/" ++ tail ∧ ∃ depth, 2 ≤ depth ∧
        depth < (splitChar '/' tail).length ∧ directory = ((splitChar '/' tail).take depth).foldl joinPath root := by
  unfold prunableAncestors
  dsimp only
  split
  · rename_i hstarts
    obtain ⟨tail, rfl⟩ := startsWith_iff.mp hstarts
    have htail : String.ofList ((pyRstrip '/' root ++ "/" ++ tail).toList.drop (pyRstrip '/' root ++ "/").toList.length) =
        tail := by
      generalize pyRstrip '/' root ++ "/" = head
      rw [String.toList_append, List.drop_left, String.ofList_toList]
    rw [htail]
    constructor
    · intro hmem
      obtain ⟨depth, hdepth, rfl⟩ := List.mem_map.mp hmem
      obtain ⟨hrange, htwo⟩ := List.mem_filter.mp hdepth
      exact ⟨tail, rfl, depth, by simpa using htwo, List.mem_range.mp (List.mem_reverse.mp hrange), rfl⟩
    · rintro ⟨other, hother, depth, htwo, hdepth, rfl⟩
      obtain rfl : tail = other := append_left_text hother
      apply List.mem_map.mpr
      exact ⟨depth, List.mem_filter.mpr ⟨List.mem_reverse.mpr (List.mem_range.mpr hdepth), by simpa using htwo⟩, rfl⟩
  · rename_i hstarts
    constructor
    · intro hmem
      cases hmem
    · rintro ⟨tail, htail, _⟩
      exact absurd (startsWith_iff.mpr ⟨tail, htail⟩) hstarts

/-! ## Below a root with a name -/

/-- The roots that the ancestors of a destination are told apart below. -/
structure NamedRoot (root : String) : Prop where
  nonempty : root ≠ ""
  stripped : pyRstrip '/' root = root
  ends : endsWith "/" root = false
  named : ∃ count kept, kept ≠ [] ∧ (∀ part ∈ kept, PlainPart part) ∧
    splitChar '/' root = List.replicate count "" ++ kept

theorem pyRstrip_of_not_ends {text : String} (h : endsWith "/" text = false) : pyRstrip '/' text = text := by
  apply String.toList_inj.mp
  rw [pyRstrip, String.toList_ofList]
  cases hlast : text.toList.getLast? with
  | none =>
      rw [List.getLast?_eq_none_iff.mp hlast]
      rfl
  | some c =>
      have hc : c ≠ '/' := by
        rintro rfl
        obtain ⟨init, hinit⟩ := List.getLast?_eq_some_iff.mp hlast
        rw [endsWith, Bool.eq_false_iff] at h
        exact h (List.isSuffixOf_iff_suffix.mpr ⟨init, hinit.symm⟩)
      exact Text.stripRight_of_getLast hlast (by simpa using hc)

theorem namedRoot (hroot : isNormalized root = true) (hdouble : root ≠ "//") : NamedRoot root := by
  obtain ⟨count, kept, hcount, hplain, htext, _⟩ := splitChar_normal hroot
  simp only [isNormalized, Bool.and_eq_true, beq_iff_eq, bne_iff_ne] at hroot
  have hne : kept ≠ [] := by
    rintro rfl
    rcases hcount with rfl | rfl
    · exact hroot.2 htext
    · exact hdouble htext
  have hends : endsWith "/" root = false := by
    rw [htext]
    exact slashJoin_not_ends hne hplain _
  refine ⟨?_, pyRstrip_of_not_ends hends, hends, count, kept, hne, hplain, ?_⟩
  · rintro rfl
    exact absurd hroot.1.1 (by decide)
  · rw [htext]
    exact splitChar_absoluteText hne hplain

theorem descends_of_mem {root destination directory : String} (hroot : NamedRoot root)
    (hdestination : isNormalized destination = true) (h : directory ∈ prunableAncestors destination root) :
    Descends 2 root directory ∧ endsWith "/" directory = false ∧ Descends 1 directory destination := by
  obtain ⟨tail, htail, depth, htwo, hdepth, rfl⟩ := mem_prunableAncestors.mp h
  rw [hroot.stripped] at htail
  obtain ⟨count, kept, hkept, hplainKept, hsplit⟩ := hroot.named
  obtain ⟨_, parts, _, hplain, _, hdrop⟩ := splitChar_normal hdestination
  -- The parts of the root come first, so no part after it is blank.
  have hplainTail : ∀ part ∈ splitChar '/' tail, PlainPart part := by
    intro part hpart
    apply hplain
    obtain ⟨first, rest, rfl⟩ := List.exists_cons_of_ne_nil hkept
    have hfirst : first ≠ "" := (hplainKept first List.mem_cons_self).nonempty
    rw [← hdrop, htail, splitChar_slash, hsplit, List.append_assoc, List.dropWhile_append_of_pos (by simp)]
    simp [hfirst, hpart]
  have hsplitTail : destination = below root (splitChar '/' tail) := by
    rw [below, hroot.ends, if_neg (by decide), Manifest.slashJoin_splitChar]
    exact htail
  have hne : (splitChar '/' tail).take depth ≠ [] := by
    intro hnil
    have hlength := congrArg List.length hnil
    rw [List.length_take, List.length_nil] at hlength
    omega
  have hplainTake : ∀ part ∈ (splitChar '/' tail).take depth, PlainPart part :=
    fun part hpart => hplainTail part (List.mem_of_mem_take hpart)
  have hfold := foldl_joinPath hroot.nonempty hne hplainTake
  have hnotEnds : endsWith "/" (((splitChar '/' tail).take depth).foldl joinPath root) = false := by
    rw [hfold]
    exact below_not_ends root hne hplainTake
  refine ⟨⟨(splitChar '/' tail).take depth, ?_, hplainTake, hfold⟩, hnotEnds,
    (splitChar '/' tail).drop depth, ?_, fun part hpart => hplainTail part (List.mem_of_mem_drop hpart), ?_⟩
  · rw [List.length_take]
    omega
  · rw [List.length_drop]
    omega
  · have hdrop : (splitChar '/' tail).drop depth ≠ [] := by
      intro hnil
      have hlength := congrArg List.length hnil
      rw [List.length_drop, List.length_nil] at hlength
      omega
    rw [hfold, ← below_append hne hdrop hplainTake, List.take_append_drop]
    exact hsplitTail

/-! ## Below two slashes -/

theorem below_double (parts : List String) : below "//" parts = absoluteText 2 parts := by
  have hends : endsWith "/" "//" = true := by decide
  rw [below, if_pos hends]
  rfl

theorem absoluteText_ne_double (hne : parts ≠ []) (hplain : ∀ part ∈ parts, PlainPart part)
    (other : List String) : absoluteText 1 parts ≠ absoluteText 2 other := by
  intro heq
  obtain ⟨c, rest, hchars, hc⟩ := slashJoin_first hne hplain
  have hlist := congrArg String.toList heq
  rw [absoluteText, absoluteText, String.toList_append, String.toList_append, hchars, String.toList_ofList,
    String.toList_ofList] at hlist
  simp only [List.replicate, List.cons_append, List.nil_append, List.cons.injEq, true_and] at hlist
  exact hc hlist.1

/-- What a path splits into after its first slash. -/
theorem tail_of_absolute (count : Nat) (hne : parts ≠ []) (hplain : ∀ part ∈ parts, PlainPart part) :
    ∃ tail, absoluteText (count + 1) parts = pyRstrip '/' "//" ++ "/" ++ tail ∧
      splitChar '/' tail = List.replicate count "" ++ parts := by
  have hstrip : pyRstrip '/' "//" = "" := by decide
  have hhead : absoluteText (count + 1) parts = "" ++ "/" ++ absoluteText count parts := by
    apply String.toList_inj.mp
    simp [absoluteText, List.replicate_succ]
  refine ⟨absoluteText count parts, ?_, splitChar_absoluteText hne hplain⟩
  rw [hstrip]
  exact hhead

/-- Joined to the root `//`, a blank part adds nothing, so of a path that starts with two slashes
the first level is named. -/
theorem ancestors_of_double {destination : String} (hdestination : isNormalized destination = true) :
    (slashes destination ≤ 2 → prunableAncestors destination "//" = []) ∧
      (3 ≤ slashes destination →
        (∃ first, PlainPart first ∧ below "//" [first] ∈ prunableAncestors destination "//") ∨
          (∀ parts, destination ≠ absoluteText 2 parts) ∧
            ∃ first second, PlainPart first ∧ PlainPart second ∧
              below "//" [first, second] ∈ prunableAncestors destination "//") := by
  obtain ⟨count, parts, hcount, hplain, rfl, _⟩ := splitChar_normal hdestination
  have hslashes := slashes_absoluteText count hplain
  by_cases hnil : parts = []
  · subst hnil
    rw [List.length_nil] at hslashes
    refine ⟨fun _ => ?_, fun h => absurd h (by omega)⟩
    rcases hcount with rfl | rfl <;> decide
  · have hpos : 0 < parts.length := List.length_pos_iff.mpr hnil
    obtain ⟨blanks, rfl⟩ : ∃ blanks, count = blanks + 1 := ⟨count - 1, by omega⟩
    obtain ⟨tail, htail, hsplit⟩ := tail_of_absolute blanks hnil hplain
    have hlength : (splitChar '/' tail).length = slashes (absoluteText (blanks + 1) parts) := by
      rw [hsplit, hslashes, List.length_append, List.length_replicate]
      omega
    have hmem : ∀ depth, 2 ≤ depth → depth < slashes (absoluteText (blanks + 1) parts) →
        ((splitChar '/' tail).take depth).foldl joinPath "//" ∈ prunableAncestors (absoluteText (blanks + 1) parts) "//" :=
      fun depth htwo hdepth => mem_prunableAncestors.mpr ⟨tail, htail, depth, htwo, by rw [hlength]; exact hdepth, rfl⟩
    constructor
    · intro hfew
      apply List.eq_nil_iff_forall_not_mem.mpr
      intro directory hdirectory
      obtain ⟨other, hother, depth, htwo, hdepth, _⟩ := mem_prunableAncestors.mp hdirectory
      rw [htail] at hother
      rw [← append_left_text hother, hlength] at hdepth
      omega
    · intro hmany
      have hsecond := hmem 2 (Nat.le_refl 2) (by omega)
      obtain ⟨first, rest, rfl⟩ := List.exists_cons_of_ne_nil hnil
      have hfirst := hplain first List.mem_cons_self
      rcases hcount with hone | htwo
      · obtain rfl : blanks = 0 := by omega
        right
        refine ⟨absoluteText_ne_double hnil hplain, ?_⟩
        cases rest with
        | nil =>
            simp only [List.length_cons, List.length_nil] at hslashes
            omega
        | cons second others =>
            have hsecondPlain := hplain second (by simp)
            have hpair : ∀ part ∈ [first, second], PlainPart part := by simp [hfirst, hsecondPlain]
            refine ⟨first, second, hfirst, hsecondPlain, ?_⟩
            rw [← foldl_joinPath (by decide) (by simp) hpair]
            rw [hsplit] at hsecond
            exact hsecond
      · obtain rfl : blanks = 1 := by omega
        left
        refine ⟨first, hfirst, ?_⟩
        have hsingle : ∀ part ∈ [first], PlainPart part := by simp [hfirst]
        rw [← foldl_joinPath (by decide) (by simp) hsingle]
        rw [hsplit] at hsecond
        have hblank : joinPath "//" "" = "//" := by decide
        have htake : (List.replicate 1 "" ++ first :: rest).take 2 = ["", first] := rfl
        rw [htake, List.foldl_cons, hblank] at hsecond
        exact hsecond

/-! ## The claim -/

def scopeRoot (scope : InstallScope) (location : InstallLocation) : String :=
  match scope with
  | .project => location.projectRoot
  | .user => location.userHome

/-- The destinations that an uninstall removes. -/
def removedDestinations (operations : List UninstallOperation) : List String :=
  (operations.filter (·.mutation == .remove)).map (·.absoluteDestination)

/-- Directories that the removal of some destinations could have emptied: each is an ancestor of
one of them and no root or first level below it, none is listed twice, and none before one that
descends from it. -/
structure CouldBeEmptied (root : String) (removed directories : List String) : Prop where
  ancestors : ∀ directory ∈ directories, ∃ destination ∈ removed, Descends 1 directory destination
  levels : ∀ directory ∈ directories, Descends 2 root directory
  once : directories.Nodup
  deepestFirst : directories.Pairwise fun earlier later => ¬ Descends 1 earlier later

theorem scopeTeardown_directories {record : InstallationRecord} {operations : List UninstallOperation}
    {statePath stateLockPath : String} {location : InstallLocation} {reclaimsState : Bool} {teardown : ScopeTeardown}
    (h : scopeTeardown record operations statePath stateLockPath location reclaimsState = .ok teardown) :
    teardown.directories =
      (((removedDestinations operations).flatMap (prunableAncestors · (scopeRoot record.scope location))).dedup).insertionSort
        deeperFirst := by
  have hdirectories : (operations.filter (·.mutation == .remove)).flatMap
      (fun operation => prunableAncestors operation.absoluteDestination (scopeRoot record.scope location)) =
        (removedDestinations operations).flatMap (prunableAncestors · (scopeRoot record.scope location)) := by
    rw [removedDestinations, List.flatMap_map]
  obtain ⟨built, hbuilt, hcase⟩ : ∃ built : ScopeTeardown, built.directories = ((operations.filter (·.mutation == .remove)).flatMap
      (fun operation => prunableAncestors operation.absoluteDestination (scopeRoot record.scope location))).dedup.insertionSort
        deeperFirst ∧
      scopeTeardown record operations statePath stateLockPath location reclaimsState =
        if built.valid then .ok built else .error "scope teardown is invalid" := ⟨_, rfl, rfl⟩
  rw [hcase] at h
  split at h
  · obtain rfl := Except.ok.inj h
    rw [hbuilt, hdirectories]
  · cases h

theorem isNormalized_of_absolute {path : String} (h : isAbsolutePath path = true) : isNormalized path = true := by
  simp only [isAbsolutePath, Bool.and_eq_true] at h
  simp only [isNormalized, Bool.and_eq_true]
  exact h.1

theorem mem_sortedAncestors {root directory : String} {removed : List String} :
    directory ∈ ((removed.flatMap (prunableAncestors · root)).dedup).insertionSort deeperFirst ↔
      ∃ destination ∈ removed, directory ∈ prunableAncestors destination root := by
  rw [List.mem_insertionSort, List.mem_dedup, List.mem_flatMap]

theorem couldBeEmptied_of_named {removed : List String} (hroot : NamedRoot root)
    (hremoved : ∀ destination ∈ removed, isNormalized destination = true) :
    CouldBeEmptied root removed (((removed.flatMap (prunableAncestors · root)).dedup).insertionSort deeperFirst) where
  ancestors := by
    intro directory hmem
    obtain ⟨destination, hdestination, hancestor⟩ := mem_sortedAncestors.mp hmem
    exact ⟨destination, hdestination, (descends_of_mem hroot (hremoved destination hdestination) hancestor).2.2⟩
  levels := by
    intro directory hmem
    obtain ⟨destination, hdestination, hancestor⟩ := mem_sortedAncestors.mp hmem
    exact (descends_of_mem hroot (hremoved destination hdestination) hancestor).1
  once := (List.perm_insertionSort deeperFirst _).nodup_iff.mpr (List.nodup_dedup _)
  deepestFirst := by
    apply (List.pairwise_insertionSort deeperFirst _).imp_of_mem
    intro earlier later hearlier _ horder
    obtain ⟨destination, hdestination, hancestor⟩ := mem_sortedAncestors.mp hearlier
    exact not_descends_of_deeperFirst (descends_of_mem hroot (hremoved destination hdestination) hancestor).2.1 horder

/-- Below the root `//` some directory listed is no ancestor or of the first level, unless none is
listed. -/
theorem couldBeEmptied_double {removed : List String} (hremoved : ∀ destination ∈ removed, isNormalized destination = true) :
    CouldBeEmptied "//" removed (((removed.flatMap (prunableAncestors · "//")).dedup).insertionSort deeperFirst) ↔
      ∀ destination ∈ removed, slashes destination ≤ 2 := by
  constructor
  · intro h destination hdestination
    by_contra hmany
    have hfirstLevel : ∀ first, PlainPart first → ∀ other ∈ removed,
        below "//" [first] ∉ prunableAncestors other "//" := by
      intro first hfirst other hother hmem
      obtain ⟨parts, hlength, hplain, heq⟩ := h.levels _ (mem_sortedAncestors.mpr ⟨other, hother, hmem⟩)
      have hcount := congrArg slashes heq
      have hsingle : ∀ part ∈ [first], PlainPart part := by simp [hfirst]
      rw [below_double, below_double, slashes_absoluteText 2 hsingle, slashes_absoluteText 2 hplain,
        List.length_singleton] at hcount
      omega
    rcases (ancestors_of_double (hremoved destination hdestination)).2 (by omega) with ⟨first, hfirst, hmem⟩ | hsecond
    · exact hfirstLevel first hfirst destination hdestination hmem
    · obtain ⟨_, first, second, hfirst, hsecond, hmem⟩ := hsecond
      have hpair : ∀ part ∈ [first, second], PlainPart part := by simp [hfirst, hsecond]
      obtain ⟨other, hother, more, hlength, hplain, heq⟩ :=
        h.ancestors _ (mem_sortedAncestors.mpr ⟨destination, hdestination, hmem⟩)
      have hmore : more ≠ [] := List.length_pos_iff.mp hlength
      rw [← below_append (by simp) hmore hpair, below_double] at heq
      have hplainAll : ∀ part ∈ [first, second] ++ more, PlainPart part := by
        intro part hpart
        rcases List.mem_append.mp hpart with hpart | hpart
        · exact hpair part hpart
        · exact hplain part hpart
      have hdeep : 3 ≤ slashes other := by
        rw [heq, slashes_absoluteText 2 hplainAll, List.length_append, List.length_cons, List.length_singleton]
        omega
      rcases (ancestors_of_double (hremoved other hother)).2 hdeep with ⟨level, hlevel, hfound⟩ | ⟨hdouble, _⟩
      · exact hfirstLevel level hlevel other hother hfound
      · exact hdouble _ heq
  · intro h
    have hnone : removed.flatMap (prunableAncestors · "//") = [] :=
      List.flatMap_eq_nil_iff.mpr fun destination hdestination =>
        (ancestors_of_double (hremoved destination hdestination)).1 (h destination hdestination)
    rw [hnone]
    exact ⟨by simp, by simp, by simp, by simp⟩

/-- The directories of a teardown are ones that the removals could have emptied, exactly when the
root of the scope is not `//` or no destination removed has three slashes. -/
theorem scopeTeardown_couldBeEmptied_iff {record : InstallationRecord} {operations : List UninstallOperation}
    {statePath stateLockPath : String} {location : InstallLocation} {reclaimsState : Bool} {teardown : ScopeTeardown}
    (hoperations : ∀ operation ∈ operations, isNormalized operation.absoluteDestination = true)
    (h : scopeTeardown record operations statePath stateLockPath location reclaimsState = .ok teardown) :
    CouldBeEmptied (scopeRoot record.scope location) (removedDestinations operations) teardown.directories ↔
      scopeRoot record.scope location ≠ "//" ∨ ∀ destination ∈ removedDestinations operations, slashes destination ≤ 2 := by
  have hremoved : ∀ destination ∈ removedDestinations operations, isNormalized destination = true := by
    intro destination hdestination
    obtain ⟨operation, hoperation, rfl⟩ := List.mem_map.mp hdestination
    exact hoperations operation (List.mem_of_mem_filter hoperation)
  have hroot : isNormalized (scopeRoot record.scope location) = true := by
    cases hscope : record.scope with
    | project => exact isNormalized_of_absolute location.projectRootAbsolute
    | user => exact isNormalized_of_absolute location.userHomeAbsolute
  rw [scopeTeardown_directories h]
  by_cases hdouble : scopeRoot record.scope location = "//"
  · rw [hdouble, couldBeEmptied_double hremoved]
    simp
  · exact iff_of_true (couldBeEmptied_of_named (namedRoot hroot hdouble) hremoved) (Or.inl hdouble)

/-! ## A rule in two roots -/

section Sample

attribute [local instance] plainLibrary

/-- The removal of the rule of a project. -/
def styleRemoval (absoluteDestination : String) : UninstallOperation where
  effect := proofOf (styleOperation "" [35])
  absoluteDestination := absoluteDestination
  precondition := .file [35] false
  mutation := .remove

def rootedAt (projectRoot : String) (h : isAbsolutePath projectRoot = true) : InstallLocation where
  projectRoot := projectRoot
  userHome := "/home/user"
  dataRoot := "/home/data"
  projectRootAbsolute := h
  userHomeAbsolute := Eq.refl true
  dataRootAbsolute := Eq.refl true

theorem scopeTeardown_one :
    scopeTeardown (styleRecord "1.0.0" (sampleDigest 'a') [35]) [styleRemoval "/one/.claude/rules/style.md"]
        "/one/.agent-artifacts/manifest.json" "/one/.agent-artifacts/state.lock" (rootedAt "/one" (by decide)) true =
      .ok ⟨"/one/.agent-artifacts/manifest.json", "/one/.agent-artifacts/state.lock", "/one/.agent-artifacts",
        ["/one/.claude/rules"], true⟩ := by
  decide +kernel

theorem scopeTeardown_double :
    scopeTeardown (styleRecord "1.0.0" (sampleDigest 'a') [35]) [styleRemoval "//.claude/rules/style.md"]
        "//.agent-artifacts/manifest.json" "//.agent-artifacts/state.lock" (rootedAt "//" (by decide)) true =
      .ok ⟨"//.agent-artifacts/manifest.json", "//.agent-artifacts/state.lock", "//.agent-artifacts",
        ["//.claude/rules", "//.claude"], true⟩ := by
  decide +kernel

/-- A teardown in the project `/one` names the directory of the rule and not `.claude`. -/
theorem scopeTeardown_couldBeEmptied_one :
    CouldBeEmptied "/one" ["/one/.claude/rules/style.md"] ["/one/.claude/rules"] :=
  (scopeTeardown_couldBeEmptied_iff (by decide +kernel) scopeTeardown_one).mpr (Or.inl (by decide))

/-- In the project `//` it names `.claude`, the directory of the harness. -/
theorem scopeTeardown_names_harness :
    ¬ ∀ (record : InstallationRecord) (operations : List UninstallOperation) (statePath stateLockPath : String)
        (location : InstallLocation) (reclaimsState : Bool) (teardown : ScopeTeardown),
      (∀ operation ∈ operations, isNormalized operation.absoluteDestination = true) →
        scopeTeardown record operations statePath stateLockPath location reclaimsState = .ok teardown →
          CouldBeEmptied (scopeRoot record.scope location) (removedDestinations operations) teardown.directories := by
  intro h
  have hlisted := h _ _ _ _ _ _ _ (by decide +kernel) scopeTeardown_double
  obtain ⟨parts, hlength, hplain, heq⟩ := hlisted.levels "//.claude" (by simp)
  have hcount := congrArg slashes heq
  change slashes "//.claude" = slashes (below "//" parts) at hcount
  have htwo : slashes "//.claude" = 2 := by decide
  rw [below_double, slashes_absoluteText 2 hplain, htwo] at hcount
  omega

end Sample

end AgentArtifacts
