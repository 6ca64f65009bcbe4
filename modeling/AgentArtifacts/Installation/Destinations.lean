import AgentArtifacts.Installation.Actions
import AgentArtifacts.Store.PathTexts

/-!
# Destinations below their root

A normalised absolute path is its slashes and its plain components, and normalising keeps it. An
accepted relative path has plain parts only, so joined to such a root it adds exactly these; that
is where every destination of a project install stands.
-/

namespace AgentArtifacts

/-! ## Plain components -/

/-- A component that normalisation keeps, whatever stands before it. -/
structure PlainPart (part : String) : Prop where
  nonempty : part ≠ ""
  notDot : part ≠ "."
  notDotDot : part ≠ ".."
  slash : '/' ∉ part.toList

theorem SafePart.plain {part : String} (h : SafePart part) : PlainPart part :=
  ⟨h.nonempty, h.notDot, h.notDotDot, h.slash⟩

theorem normStep_plain {absolute : Bool} {kept : List String} {part : String} (h : PlainPart part) :
    normStep absolute kept part = kept ++ [part] := by
  have hkeep : ¬ (part = "" ∨ part = ".") := not_or.mpr ⟨h.nonempty, h.notDot⟩
  rw [normStep, if_neg hkeep, if_pos (Or.inl h.notDotDot)]

variable {parts : List String}

theorem foldl_normStep_plain {absolute : Bool} (h : ∀ part ∈ parts, PlainPart part)
    (kept : List String) : parts.foldl (normStep absolute) kept = kept ++ parts := by
  induction parts generalizing kept with
  | nil => rw [List.foldl_nil, List.append_nil]
  | cons part rest ih =>
      obtain ⟨hpart, hrest⟩ := List.forall_mem_cons.mp h
      rw [List.foldl_cons, normStep_plain hpart, ih hrest, List.append_assoc]
      rfl

/-- Above the root nothing is left, so no component that steps up is kept. -/
theorem plain_normStep {kept : List String} {part : String} (hkept : ∀ other ∈ kept, PlainPart other)
    (hslash : '/' ∉ part.toList) : ∀ other ∈ normStep true kept part, PlainPart other := by
  unfold normStep
  split
  · exact hkept
  · rename_i hdrop
    obtain ⟨hempty, hdot⟩ := not_or.mp hdrop
    split
    · rename_i hcase
      have hnotUp : part ≠ ".." := by
        rcases hcase with hcase | ⟨habsolute, _⟩ | hlast
        · exact hcase
        · exact absurd habsolute (by decide)
        · exact absurd rfl (hkept ".." (List.mem_of_getLast? hlast)).notDotDot
      intro other hother
      rcases List.mem_append.mp hother with hother | hother
      · exact hkept other hother
      · rw [List.mem_singleton.mp hother]
        exact ⟨hempty, hdot, hnotUp, hslash⟩
    · exact fun other hother => hkept other (List.mem_of_mem_dropLast hother)

theorem plain_foldl_normStep {parts kept : List String} (hparts : ∀ part ∈ parts, '/' ∉ part.toList)
    (hkept : ∀ part ∈ kept, PlainPart part) : ∀ part ∈ parts.foldl (normStep true) kept, PlainPart part := by
  induction parts generalizing kept with
  | nil => exact hkept
  | cons part rest ih =>
      obtain ⟨hpart, hrest⟩ := List.forall_mem_cons.mp hparts
      exact ih hrest (plain_normStep hkept hpart)

/-! ## Absolute paths in normal form -/

/-- The slashes that open an absolute path and its components. -/
def absoluteText (slashes : Nat) (parts : List String) : String :=
  String.ofList (List.replicate slashes '/') ++ slashJoin parts

theorem slashJoin_first (hne : parts ≠ []) (hplain : ∀ part ∈ parts, PlainPart part) :
    ∃ c rest, (slashJoin parts).toList = c :: rest ∧ c ≠ '/' := by
  obtain ⟨first, others, rfl⟩ := List.exists_cons_of_ne_nil hne
  have hfirst := hplain first List.mem_cons_self
  obtain ⟨c, more, hchars⟩ :=
    List.exists_cons_of_ne_nil (fun h => hfirst.nonempty (String.toList_inj.mp h) : first.toList ≠ [])
  have hc : c ≠ '/' := fun h => hfirst.slash (by rw [hchars, h]; exact List.mem_cons_self)
  rw [slashJoin_toList, List.map_cons, hchars]
  cases others with
  | nil => exact ⟨c, more, by simp, hc⟩
  | cons next rest => exact ⟨c, _, by rw [List.map_cons, List.intercalate_cons_cons]; rfl, hc⟩

theorem slashJoin_not_ends (hne : parts ≠ []) (hplain : ∀ part ∈ parts, PlainPart part)
    (lead : String) : endsWith "/" (lead ++ slashJoin parts) = false := by
  obtain ⟨init, last, rfl⟩ : ∃ init last, parts = init ++ [last] :=
    ⟨parts.dropLast, parts.getLast hne, (List.dropLast_append_getLast hne).symm⟩
  have hlast := hplain last (by simp)
  have hchars : last.toList ≠ [] := fun h => hlast.nonempty (String.toList_inj.mp h)
  obtain ⟨before, hbefore⟩ : ∃ before, (lead ++ slashJoin (init ++ [last])).toList = before ++ last.toList := by
    by_cases hinit : init = []
    · subst hinit
      exact ⟨lead.toList, by simp [slashJoin_toList]⟩
    · rw [slashJoin_append hinit (by simp)]
      exact ⟨lead.toList ++ (slashJoin init ++ "/").toList, by simp [slashJoin_toList]⟩
  rw [Bool.eq_false_iff]
  intro hends
  obtain ⟨rest, hrest⟩ := List.isSuffixOf_iff_suffix.mp hends
  rw [hbefore] at hrest
  have hslash := congrArg List.getLast? hrest
  rw [List.getLast?_append_of_ne_nil _ hchars, List.getLast?_append_of_ne_nil _ (by decide)] at hslash
  exact hlast.slash (List.mem_of_getLast? hslash.symm)

theorem splitChar_absoluteText {slashes : Nat} (hne : parts ≠ [])
    (hplain : ∀ part ∈ parts, PlainPart part) :
    splitChar '/' (absoluteText slashes parts) = List.replicate slashes "" ++ parts := by
  have hsplit : List.splitOn '/' (slashJoin parts).toList = parts.map String.toList := by
    rw [slashJoin_toList]
    refine List.splitOn_intercalate '/' ?_ (by simpa using hne)
    intro chars hchars
    obtain ⟨part, hpart, rfl⟩ := List.mem_map.mp hchars
    exact (hplain part hpart).slash
  have hlead : ∀ n, List.splitOn '/' (List.replicate n '/' ++ (slashJoin parts).toList) =
      List.replicate n [] ++ parts.map String.toList := by
    intro n
    induction n with
    | zero => exact hsplit
    | succ n ih =>
        rw [List.replicate_succ, List.cons_append, List.splitOn_cons_eq_if_modifyHead, ih]
        rfl
  rw [absoluteText, splitChar, String.toList_append, String.toList_ofList, hlead]
  simp

/-- A path of plain components after one or two slashes is normal. -/
theorem normPath_absoluteText {slashes : Nat} (hslashes : slashes = 1 ∨ slashes = 2)
    (hne : parts ≠ []) (hplain : ∀ part ∈ parts, PlainPart part) :
    normPath (absoluteText slashes parts) = absoluteText slashes parts := by
  obtain ⟨c, rest, hchars, hc⟩ := slashJoin_first hne hplain
  have htext : (absoluteText slashes parts).toList = List.replicate slashes '/' ++ c :: rest := by
    rw [absoluteText, String.toList_append, String.toList_ofList, hchars]
  have hinitial : initialSlashes (absoluteText slashes parts) = slashes := by
    unfold initialSlashes startsWith
    rw [htext]
    rcases hslashes with rfl | rfl
    · simp [List.isPrefixOf, Ne.symm hc, List.replicate_succ]
    · simp [List.isPrefixOf, Ne.symm hc, List.replicate_succ]
  have hnonempty : absoluteText slashes parts ≠ "" := by
    intro hempty
    rw [hempty] at htext
    exact absurd htext.symm (by simp)
  have hblank : (List.replicate slashes "").foldl (normStep (slashes != 0)) [] = [] := by
    rcases hslashes with rfl | rfl <;> decide
  unfold normPath
  rw [if_neg hnonempty]
  dsimp only
  rw [hinitial, splitChar_absoluteText hne hplain, List.foldl_append, hblank, foldl_normStep_plain hplain, List.nil_append]
  exact if_neg hnonempty

theorem absoluteText_of_normal {path : String} (habs : isAbs path = true) (hnormal : normPath path = path) :
    ∃ slashes parts, (slashes = 1 ∨ slashes = 2) ∧ (∀ part ∈ parts, PlainPart part) ∧ path = absoluteText slashes parts := by
  have hne : path ≠ "" := by
    rintro rfl
    exact absurd habs (by decide)
  have hslashes : initialSlashes path = 1 ∨ initialSlashes path = 2 := by
    have hone : startsWith "/" path = true := habs
    unfold initialSlashes
    rw [if_pos hone]
    split
    · exact Or.inl rfl
    · split
      · exact Or.inr rfl
      · exact Or.inl rfl
  refine ⟨initialSlashes path, (splitChar '/' path).foldl (normStep true) [], hslashes, ?_, ?_⟩
  · exact plain_foldl_normStep (fun part hpart => slash_notMem_splitChar hpart) (by simp)
  · have htrue : (initialSlashes path != 0) = true := by
      rcases hslashes with h | h <;> rw [h] <;> decide
    unfold normPath at hnormal
    rw [if_neg hne] at hnormal
    dsimp only at hnormal
    rw [htrue] at hnormal
    split at hnormal
    · rename_i hempty
      have hlength := congrArg (fun text => text.toList.length) hempty
      simp only [String.toList_append, String.toList_ofList, List.length_append, List.length_replicate] at hlength
      exact absurd hlength (by simp; omega)
    · exact hnormal.symm

/-! ## Below a root -/

/-- A root followed by parts. -/
def below (root : String) (parts : List String) : String :=
  (if endsWith "/" root then root else root ++ "/") ++ slashJoin parts

theorem normPath_joinPath {root : String} (habs : isAbs root = true) (hnormal : normPath root = root)
    (hne : parts ≠ []) (hplain : ∀ part ∈ parts, PlainPart part) :
    normPath (joinPath root (slashJoin parts)) = below root parts := by
  have hrelative : isAbs (slashJoin parts) = false := by
    obtain ⟨c, rest, hchars, hc⟩ := slashJoin_first hne hplain
    rw [isAbs, startsWith, hchars]
    simpa [List.isPrefixOf] using Ne.symm hc
  have hroot : root ≠ "" := by
    rintro rfl
    exact absurd habs (by decide)
  have hjoin : joinPath root (slashJoin parts) = below root parts := by
    have hcase : ¬ (isAbs (slashJoin parts) = true ∨ root = "") := by simp [hrelative, hroot]
    rw [joinPath, if_neg hcase, below]
    split <;> rfl
  rw [hjoin]
  obtain ⟨slashes, kept, hslashes, hkept, rfl⟩ := absoluteText_of_normal habs hnormal
  have hbelow : below (absoluteText slashes kept) parts = absoluteText slashes (kept ++ parts) := by
    by_cases hnone : kept = []
    · subst hnone
      have hends : endsWith "/" (absoluteText slashes []) = true := by
        rcases hslashes with rfl | rfl <;> decide
      rw [below, if_pos hends, absoluteText, absoluteText, List.nil_append]
      simp [slashJoin]
    · rw [below, absoluteText, slashJoin_not_ends hnone hkept, absoluteText, slashJoin_append hnone hne]
      simp [String.append_assoc]
  rw [hbelow]
  refine normPath_absoluteText hslashes (by simp [hne]) fun part hpart => ?_
  rcases List.mem_append.mp hpart with hpart | hpart
  · exact hkept part hpart
  · exact hplain part hpart

section Destinations

variable [StandardLibrary]

/-- Inside a root, and not the root itself. -/
def StrictlyBelow (root path : String) : Prop :=
  ∃ parts, parts ≠ [] ∧ (∀ part ∈ parts, PlainPart part) ∧ path = root ++ "/" ++ slashJoin parts

theorem safeParts_of_parse {raw : String} {path : SafeRelativePath} (h : parseRelativePath raw = .ok path) :
    path.parts ≠ [] ∧ ∀ part ∈ path.parts, PlainPart part := by
  obtain ⟨hne, hsafe, _⟩ := canonical_iff.mp (canonical_of_parse h)
  exact ⟨hne, fun part hpart => (hsafe part hpart).plain⟩

theorem destinationOf_below {path : String} {location : InstallLocation} {destination : Destination}
    (h : destinationOf path .project location = .ok destination) : StrictlyBelow location.projectRoot destination.absolute := by
  have hroot := location.projectRootAbsolute
  simp only [isAbsolutePath, Bool.and_eq_true, beq_iff_eq, bne_iff_ne] at hroot
  obtain ⟨⟨⟨habs, hnormal⟩, hnotRoot⟩, _⟩ := hroot
  unfold destinationOf at h
  dsimp only at h
  split at h
  · cases h
  rename_i relative hparsed
  split at h
  · rename_i hcommon
    obtain rfl := Except.ok.inj h
    obtain ⟨hne, hplain⟩ := safeParts_of_parse hparsed
    refine ⟨relative.parts, hne, hplain, ?_⟩
    have htext : slashJoin relative.parts = normPath path := Native.textOf_relativePath _ _ hparsed
    have hbelow := normPath_joinPath habs hnormal hne hplain
    rw [htext] at hbelow
    dsimp only
    rw [hbelow, below, htext]
    -- A root of slashes alone is `/`, which no location has, or `//`, which is no common path.
    obtain ⟨slashes, kept, hslashes, hkept, hkeptText⟩ := absoluteText_of_normal habs hnormal
    have hkeptNe : kept ≠ [] := by
      rintro rfl
      rcases hslashes with rfl | rfl
      · exact hnotRoot hkeptText
      · have hdouble : location.projectRoot = "//" := hkeptText
        rw [hdouble, commonPath] at hcommon
        split at hcommon
        · have hnil : pathComponents "//" = [] := by decide
          rw [hnil] at hcommon
          exact absurd hcommon (by simp [commonComponents]; decide)
        · cases hcommon
    rw [hkeptText, absoluteText, slashJoin_not_ends hkeptNe hkept]
    rfl
  · cases h

/-- An accepted relative path is the text it was read from, and joined to a normalised absolute
root it adds exactly its parts; whatever path a profile gives for an artifact, its destination in
a project install stands strictly inside the project root. -/
theorem acceptedPaths_confined :
    (∀ raw path, parseRelativePath raw = .ok path → path.str = raw ∧
      ∀ root, isAbs root = true → normPath root = root → normPath (joinPath root raw) = below root path.parts) ∧
    ∀ (request : InstallRequest) (location : InstallLocation) (path : String) (destination : Destination),
      request.scope = .project → destinationOf path request.scope location = .ok destination →
        StrictlyBelow location.projectRoot destination.absolute := by
  constructor
  · intro raw path hparsed
    have htext : path.str = raw := Native.textOf_relativePath _ _ hparsed
    refine ⟨htext, fun root habs hnormal => ?_⟩
    obtain ⟨hne, hplain⟩ := safeParts_of_parse hparsed
    rw [← htext]
    exact normPath_joinPath habs hnormal hne hplain
  · intro request location path destination hscope h
    rw [hscope] at h
    exact destinationOf_below h

end Destinations

/-! ## A destination -/

section Sample

attribute [local instance] plainLibrary

def homeProject : InstallLocation where
  projectRoot := "/home/project"
  userHome := "/home/user"
  dataRoot := "/home/data"
  projectRootAbsolute := by decide
  userHomeAbsolute := by decide
  dataRootAbsolute := by decide

def projectSkillRequest : InstallRequest where
  identity := ⟨.skill, ⟨"style", Eq.refl true⟩⟩
  profile := ⟨"claude", Eq.refl true⟩

theorem acceptedPaths_confined_style :
    normPath (joinPath "//share" "style/notes") = "//share/style/notes" ∧
      StrictlyBelow "/home/project" "/home/project/skills/style" := by
  refine ⟨?_, ?_⟩
  · exact (acceptedPaths_confined.1 "style/notes" ⟨["style", "notes"]⟩ (by decide)).2 "//share" (by decide) (by decide)
  · exact acceptedPaths_confined.2 projectSkillRequest homeProject "tools/../skills//style" ⟨"skills/style", "/home/project/skills/style"⟩
      rfl (by decide)

end Sample

end AgentArtifacts
