import AgentArtifacts.Protocol.NativeDocuments
import AgentArtifacts.Store.ObjectPaths

/-!
# Texts of paths

The text of a canonical path determines its parts, and what stands below a path is what
has its text and a slash in front.
-/

namespace AgentArtifacts

open Manifest (slashJoin_splitChar splitChar_slashJoin append_removePrefix)
open Native (textOf_relativePath)

/-! ## Below a path -/

theorem startsWith_iff {head text : String} : startsWith head text = true ↔ ∃ rest, text = head ++ rest := by
  constructor
  · intro h
    exact ⟨removePrefix head text, (append_removePrefix h).symm⟩
  · rintro ⟨rest, rfl⟩
    rw [startsWith, String.toList_append]
    exact List.isPrefixOf_iff_prefix.mpr (List.prefix_append _ _)

theorem slash_notMem_splitChar {text part : String} (h : part ∈ splitChar '/' text) : '/' ∉ part.toList := by
  obtain ⟨chars, hchars, rfl⟩ := List.mem_map.mp h
  rw [String.toList_ofList]
  exact (chars_of_mem_splitOn hchars).1

theorem splitChar_ne_nil (text : String) : splitChar '/' text ≠ [] := by
  simp [splitChar, List.splitOn_ne_nil]

theorem slashJoin_append {left right : List String} (hleft : left ≠ []) (hright : right ≠ []) :
    slashJoin (left ++ right) = slashJoin left ++ "/" ++ slashJoin right := by
  refine String.toList_inj.mp ?_
  rw [String.toList_append, String.toList_append, slashJoin_toList, slashJoin_toList, slashJoin_toList, List.map_append]
  induction left with
  | nil => exact absurd rfl hleft
  | cons first rest ih =>
      cases rest with
      | nil =>
          obtain ⟨second, others, rfl⟩ := List.exists_cons_of_ne_nil hright
          simp [List.intercalate_cons_cons]
      | cons second others =>
          have hrest := ih (by simp)
          simp only [List.map_cons, List.cons_append] at hrest ⊢
          rw [List.intercalate_cons_cons, List.intercalate_cons_cons, hrest]
          simp only [List.append_assoc]

/-- What stands below a directory, part by part. -/
theorem splitChar_below {parts : List String} (hne : parts ≠ []) (hno : ∀ part ∈ parts, '/' ∉ part.toList) (tail : String) :
    splitChar '/' (slashJoin parts ++ "/" ++ tail) = parts ++ splitChar '/' tail := by
  have hjoin : slashJoin parts ++ "/" ++ tail = slashJoin (parts ++ splitChar '/' tail) := by
    rw [slashJoin_append hne (splitChar_ne_nil tail), slashJoin_splitChar]
  rw [hjoin]
  refine splitChar_slashJoin ?_ (by simp [hne])
  intro part hpart
  rcases List.mem_append.mp hpart with hpart | hpart
  · exact hno part hpart
  · exact slash_notMem_splitChar hpart

/-! ## Canonical paths -/

variable [StandardLibrary]

theorem parseRelativePath_parts {raw : String} {path : SafeRelativePath} (h : parseRelativePath raw = .ok path) :
    path = ⟨splitChar '/' raw⟩ := by
  unfold parseRelativePath at h
  obtain ⟨_, h⟩ := Result.of_check_ok h
  obtain ⟨_, h⟩ := Result.of_check_ok h
  obtain ⟨_, h⟩ := Result.of_check_ok h
  obtain ⟨_, h⟩ := Result.of_check_ok h
  obtain ⟨_, h⟩ := Result.of_check_ok h
  dsimp only at h
  obtain ⟨_, h⟩ := Result.of_check_ok h
  obtain ⟨_, h⟩ := Result.of_check_ok h
  exact (Except.ok.inj h).symm

theorem canonical_of_parse {raw : String} {path : SafeRelativePath} (h : parseRelativePath raw = .ok path) :
    Canonical path := by
  unfold Canonical
  rw [textOf_relativePath _ _ h]
  exact h

/-- The parts of a directory above a canonical path are found in its text. -/
theorem ancestor_of_text {path ancestor : SafeRelativePath} (hpath : Canonical path)
    (hancestor : ancestor ∈ properAncestors path) : ancestor = ⟨splitChar '/' ancestor.str⟩ := by
  obtain ⟨hne, hsafe, _, _⟩ := canonical_iff.mp hpath
  obtain ⟨n, hpos, hn, rfl⟩ := mem_properAncestors.mp hancestor
  have htake : path.parts.take n ≠ [] := by
    intro hnil
    have hlength := congrArg List.length hnil
    rw [List.length_take, List.length_nil] at hlength
    omega
  have hparts : splitChar '/' (slashJoin (path.parts.take n)) = path.parts.take n :=
    Manifest.splitChar_slashJoin (fun part hpart => (hsafe part (List.mem_of_mem_take hpart)).slash) htake
  rw [SafeRelativePath.str, hparts]

theorem path_of_text {a b : SafeRelativePath} (ha : Canonical a) (hb : Canonical b) (h : a.str = b.str) : a = b := by
  rw [parseRelativePath_parts ha, parseRelativePath_parts hb, h]

omit [StandardLibrary] in
theorem append_left_text {lead a b : String} (h : lead ++ a = lead ++ b) : a = b := by
  refine String.toList_inj.mp ?_
  have hlist := congrArg String.toList h
  rw [String.toList_append, String.toList_append] at hlist
  exact List.append_cancel_left hlist

end AgentArtifacts
