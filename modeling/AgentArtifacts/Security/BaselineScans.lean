import AgentArtifacts.Security.Baseline
import AgentArtifacts.Store.ReferenceDocuments

/-!
# What the scanners find and skip

Every hit stands in a place that a finding may have. A scanner that names nothing as left out has
read its files to their ends and found all that its rules find there.
-/

namespace AgentArtifacts.Security

/-! ## Places -/

/-- What a rule may fire: a hit in a place that a finding may have. The rule of the limit never fires. -/
def Hit.Fired (hit : Hit) : Prop := hit.placed = true ∧ hit.rule ≠ .findingsTruncated

theorem fired_without_line {rule : RuleId} (path : Option SafeRelativePath) (hrule : rule ≠ .findingsTruncated) :
    (⟨rule, path, none⟩ : Hit).Fired := ⟨rfl, hrule⟩

theorem fired_on_line {rule : RuleId} (path : SafeRelativePath) {line : Nat} (hrule : rule ≠ .findingsTruncated)
    (hfirst : 1 ≤ line) (hlast : line ≤ 10000000) : (⟨rule, some path, some line⟩ : Hit).Fired := by
  refine ⟨?_, hrule⟩
  simp [Hit.placed, hfirst, hlast]

def AllFired (hits : List Hit) : Prop := ∀ hit ∈ hits, hit.Fired

theorem AllFired.append {first second : List Hit} (hfirst : AllFired first) (hsecond : AllFired second) :
    AllFired (first ++ second) := by
  intro hit hmem
  rcases List.mem_append.mp hmem with h | h
  · exact hfirst hit h
  · exact hsecond hit h

variable {hit : Hit}

theorem allFired_whenever {condition : Bool} (h : hit.Fired) : AllFired (whenever condition hit) := by
  intro found hmem
  rw [mem_whenever hmem]
  exact h

theorem allFired_nil : AllFired [] := by
  intro hit hmem
  cases hmem

theorem allFired_singleton (h : hit.Fired) : AllFired [hit] := by
  intro found hmem
  rw [List.mem_singleton.mp hmem]
  exact h

/-- A scan of a file, all of whose hits may fire. -/
def FileScan.Fired (scan : FileScan) : Prop := AllFired scan.noted ∧ ∀ piece ∈ scan.pieces, AllFired piece

theorem FileScan.Fired.hits {scan : FileScan} (h : scan.Fired) : AllFired scan.hits := by
  refine h.1.append ?_
  intro hit hmem
  obtain ⟨piece, hpiece, hhit⟩ := List.mem_flatten.mp hmem
  exact h.2 piece hpiece hit hhit

theorem fired_unread (category : String) (entry : SnapshotEntry) {reason : RuleId} (hreason : reason ≠ .findingsTruncated)
    (what : String) : (unread category entry reason what).Fired := by
  refine ⟨allFired_singleton (fired_without_line _ hreason), ?_⟩
  intro piece hpiece
  cases hpiece

variable {entry : SnapshotEntry}

/-- A text that is read is bounded. -/
theorem length_of_scanText {text : String} (h : scanText entry = .ok text) :
    text.length ≤ maxScannedFileBytes := by
  unfold scanText at h
  split at h
  · cases h
  · rename_i hsize
    split at h
    · cases h
    · rename_i found hfound
      cases h
      have hbytes := encodeUtf8_of_decodeUtf8 hfound
      have hlength := length_le_encodeUtf8 text
      rw [hbytes] at hlength
      omega

theorem reason_of_scanText {reason : RuleId} (h : scanText entry = .error reason) :
    reason ≠ .findingsTruncated := by
  unfold scanText at h
  split at h
  · cases h
    decide
  · split at h
    · cases h
      decide
    · cases h

variable {category : String}

theorem fired_scanFile {scan : String → FileScan}
    (h : ∀ text, text.length ≤ maxScannedFileBytes → (scan text).Fired) : (scanFile category scan entry).Fired := by
  unfold scanFile
  split
  · rename_i reason hreason
    exact fired_unread _ _ (reason_of_scanText hreason) _
  · rename_i text htext
    exact h text (length_of_scanText htext)

/-- A scan that leaves nothing out has read the text. -/
theorem read_of_scanFile {scan : String → FileScan}
    (h : (scanFile category scan entry).skipped = []) : ∃ text, scanText entry = .ok text ∧ (scan text).skipped = [] := by
  unfold scanFile at h
  split at h
  · cases h
  · rename_i text htext
    exact ⟨text, htext, h⟩

/-! ## Lines -/

theorem mem_numbered {lines : List String} {line : Nat × String} (h : line ∈ numbered lines) :
    1 ≤ line.1 ∧ line.1 ≤ lines.length := by
  obtain ⟨⟨text, index⟩, hmem, rfl⟩ := List.mem_map.mp h
  have hindex := List.snd_lt_of_mem_zipIdx hmem
  dsimp only at hindex ⊢
  omega

theorem mem_containerBuildCommands {number : Nat} {lines : List String} {command : Nat × String}
    (h : command ∈ containerBuildCommands number lines) : number ≤ command.1 ∧ command.1 < number + lines.length := by
  induction number, lines using containerBuildCommands.induct with
  | case1 number =>
      rw [containerBuildCommands] at h
      cases h
  | case2 number line rest hnone ih =>
      rw [containerBuildCommands, hnone] at h
      have hbounds := ih h
      simp only [List.length_cons]
      omega
  | case3 number line rest command' hsome found ih =>
      rw [containerBuildCommands, hsome] at h
      rcases List.mem_cons.mp h with rfl | hmem
      · simp only [List.length_cons]
        omega
      · have hbounds := ih hmem
        have hleft : found.2.length ≤ rest.length := length_commandParts _ _
        simp only [List.length_cons]
        omega

section Scanners

variable [ScanRuntime]

omit [ScanRuntime] in
theorem fired_callHits (path : SafeRelativePath) {call : Call} (hfirst : 1 ≤ call.line) (hlast : call.line ≤ 10000000) :
    AllFired (callHits path call) := by
  have hwhen (condition : Bool) {rule : RuleId} (hrule : rule ≠ .findingsTruncated) :
      AllFired (whenever condition ⟨rule, some path, some call.line⟩) :=
    allFired_whenever (fired_on_line path hrule hfirst hlast)
  unfold callHits
  exact (((hwhen _ (by decide)).append (hwhen _ (by decide))).append (hwhen _ (by decide))).append (hwhen _ (by decide))

theorem fired_shellLineHits (text : String) (path : SafeRelativePath) {line : Option Nat}
    (hfired : ∀ rule, rule ≠ .findingsTruncated → (⟨rule, some path, line⟩ : Hit).Fired) :
    AllFired (shellLineHits text path line) := by
  have hwhen (condition : Bool) {rule : RuleId} (hrule : rule ≠ .findingsTruncated) :
      AllFired (whenever condition ⟨rule, some path, line⟩) := allFired_whenever (hfired rule hrule)
  unfold shellLineHits
  exact ((((hwhen _ (by decide)).append (hwhen _ (by decide))).append (hwhen _ (by decide))).append
    (hwhen _ (by decide))).append (hwhen _ (by decide))

theorem fired_credentialScan (entry : SnapshotEntry) : (credentialScan entry).Fired := by
  apply fired_scanFile
  intro text _
  refine ⟨allFired_whenever (fired_without_line _ (by decide)), ?_⟩
  intro piece hpiece
  cases hpiece

theorem fired_pythonScan (entry : SnapshotEntry) : (pythonScan entry).Fired := by
  apply fired_scanFile
  intro text hlength
  split
  · exact fired_unread _ _ (by decide) _
  · rename_i nodes hnodes
    split
    · exact fired_unread _ _ (by decide) _
    · refine ⟨allFired_nil, ?_⟩
      intro piece hpiece
      obtain ⟨call, hcall, rfl⟩ := List.mem_map.mp hpiece
      obtain ⟨node, hnode, hsome⟩ := List.mem_filterMap.mp hcall
      cases node with
      | other => cases hsome
      | call found =>
          cases hsome
          obtain ⟨hfirst, hlast⟩ := ScanRuntime.parsePython_line text nodes call hnodes hnode
          apply fired_callHits entry.path hfirst
          unfold maxScannedFileBytes at hlength
          omega

theorem fired_keyHits (path : SafeRelativePath) (key : String) (value : Json) : AllFired (keyHits path key value) := by
  unfold keyHits
  split
  · exact (allFired_whenever (fired_without_line _ (by decide))).append (allFired_whenever (fired_without_line _ (by decide)))
  · exact allFired_nil

theorem fired_dispatchPieces (path : SafeRelativePath) (value : Json) :
    ∀ piece ∈ dispatchPieces path value, AllFired piece := by
  have hline (argument : String) : AllFired (shellLineHits argument path none) :=
    fired_shellLineHits argument path fun rule hrule => fired_without_line _ hrule
  intro piece hpiece
  unfold dispatchPieces at hpiece
  split at hpiece
  · cases hpiece
  · cases hpiece
  · rename_i first more _
    rcases List.mem_cons.mp hpiece with rfl | hmore
    · exact (allFired_singleton (fired_without_line _ (by decide))).append (hline first)
    · obtain ⟨argument, _, rfl⟩ := List.mem_map.mp hmore
      exact hline argument

theorem fired_jsonScan [StandardLibrary] (entry : SnapshotEntry) : (jsonScan entry).Fired := by
  apply fired_scanFile
  intro text _
  split
  · exact fired_unread _ _ (by decide) _
  · refine ⟨allFired_nil, ?_⟩
    intro piece hpiece
    rcases List.mem_append.mp hpiece with hkey | hdispatch
    · obtain ⟨field, _, rfl⟩ := List.mem_map.mp hkey
      exact fired_keyHits _ _ _
    · split at hdispatch
      · obtain ⟨field, _, hfield⟩ := List.mem_flatMap.mp hdispatch
        exact fired_dispatchPieces _ _ piece hfield
      · cases hdispatch

theorem fired_shellScan (entry : SnapshotEntry) : (shellScan entry).Fired := by
  apply fired_scanFile
  intro text _
  refine ⟨allFired_whenever (fired_without_line _ (by decide)), ?_⟩
  intro piece hpiece
  obtain ⟨command, hcommand, rfl⟩ := List.mem_map.mp hpiece
  -- Either way at most the limit of lines is looked at.
  have hkept : (if decide ((pySplitlines text).length > maxShellLines) = true then (pySplitlines text).take maxShellLines
      else pySplitlines text).length ≤ maxShellLines := by
    split
    · exact List.length_take_le _ _
    · rename_i hlong
      simpa using hlong
  have hbounds : 1 ≤ command.1 ∧ command.1 ≤ maxShellLines := by
    split at hcommand
    · have h := mem_containerBuildCommands hcommand
      omega
    · have h := mem_numbered hcommand
      omega
  unfold maxShellLines at hbounds
  exact fired_shellLineHits _ _ fun rule hrule => fired_on_line _ hrule hbounds.1 (by omega)

theorem fired_transportScan (entry : SnapshotEntry) : (transportScan entry).Fired := by
  apply fired_scanFile
  intro text hlength
  refine ⟨allFired_nil, ?_⟩
  intro piece hpiece
  obtain ⟨line, hline, rfl⟩ := List.mem_map.mp hpiece
  obtain ⟨hfirst, hlast⟩ := mem_numbered (List.mem_filter.mp hline).1
  have hlines := length_pySplitlines text
  unfold maxScannedFileBytes at hlength
  exact allFired_singleton (fired_on_line _ (by decide) hfirst (by omega))

theorem fired_scanners [StandardLibrary] {scanner : Scanner} (h : scanner ∈ scanners) (entry : SnapshotEntry) :
    (scanner.scan entry).Fired := by
  simp only [scanners, List.mem_cons, List.not_mem_nil, or_false] at h
  rcases h with rfl | rfl | rfl | rfl | rfl
  · exact fired_credentialScan entry
  · exact fired_pythonScan entry
  · exact fired_jsonScan entry
  · exact fired_shellScan entry
  · exact fired_transportScan entry

end Scanners

/-! ## Limits -/

variable {found : List Hit}

theorem takePieces_subset {pieces : List (List Hit)}
    (h : hit ∈ (takePieces found pieces).1) : hit ∈ found ∨ hit ∈ pieces.flatten := by
  induction pieces generalizing found with
  | nil => exact .inl h
  | cons piece rest ih =>
      rw [takePieces] at h
      rw [List.flatten_cons, List.mem_append]
      split at h
      · rcases List.mem_append.mp h with hfound | hpiece
        · exact .inl hfound
        · exact .inr (.inl hpiece)
      · rcases ih h with happend | hrest
        · rcases List.mem_append.mp happend with hfound | hpiece
          · exact .inl hfound
          · exact .inr (.inl hpiece)
        · exact .inr (.inr hrest)

/-- Where the limit is not reached, every piece is looked at. -/
theorem takePieces_whole {found all : List Hit} {pieces : List (List Hit)} (h : takePieces found pieces = (all, false)) :
    all = found ++ pieces.flatten := by
  induction pieces generalizing found with
  | nil =>
      rw [takePieces, Prod.mk.injEq] at h
      rw [List.flatten_nil, List.append_nil]
      exact h.1.symm
  | cons piece rest ih =>
      rw [takePieces] at h
      split at h
      · cases h
      · rw [ih h, List.flatten_cons, List.append_assoc]

theorem scanFiles_subset {skipped : List String} {files : List FileScan}
    (h : hit ∈ (scanFiles category found skipped files).1) : hit ∈ found ∨ ∃ file ∈ files, hit ∈ file.hits := by
  induction files generalizing found skipped with
  | nil => exact .inl h
  | cons file rest ih =>
      have hstep {all : List Hit} {limited : Bool} (htaken : takePieces (found ++ file.noted) file.pieces = (all, limited))
          (hmem : hit ∈ all) : hit ∈ found ∨ ∃ file' ∈ file :: rest, hit ∈ file'.hits := by
        have htaken' : hit ∈ (takePieces (found ++ file.noted) file.pieces).1 := by
          rw [htaken]
          exact hmem
        rcases takePieces_subset htaken' with happend | hpieces
        · rcases List.mem_append.mp happend with hfound | hnoted
          · exact .inl hfound
          · exact .inr ⟨file, List.mem_cons_self, List.mem_append_left _ hnoted⟩
        · exact .inr ⟨file, List.mem_cons_self, List.mem_append_right _ hpieces⟩
      rw [scanFiles] at h
      split at h
      · rename_i all htaken
        exact hstep htaken h
      · rename_i all htaken
        rcases ih h with hall | ⟨other, hother, hhit⟩
        · exact hstep htaken hall
        · exact .inr ⟨other, List.mem_cons_of_mem _ hother, hhit⟩

theorem scanFiles_keeps {skipped : List String} {files : List FileScan}
    {label : String} (h : label ∈ skipped) : label ∈ (scanFiles category found skipped files).2 := by
  induction files generalizing found skipped with
  | nil => exact h
  | cons file rest ih =>
      rw [scanFiles]
      split
      · exact List.mem_append_left _ (List.mem_append_left _ h)
      · exact ih (List.mem_append_left _ h)

/-- A scanner that names nothing as left out has found all that is in its files. -/
theorem scanFiles_whole {skipped : List String} {files : List FileScan}
    (h : (scanFiles category found skipped files).2 = []) :
    (∀ file ∈ files, file.skipped = []) ∧ (scanFiles category found skipped files).1 = found ++ files.flatMap FileScan.hits := by
  induction files generalizing found skipped with
  | nil => simp [scanFiles]
  | cons file rest ih =>
      rw [scanFiles] at h ⊢
      split at h
      · exact absurd h (by simp)
      · rename_i all htaken
        have hfile : file.skipped = [] := by
          apply List.eq_nil_iff_forall_not_mem.mpr
          intro label hlabel
          have hkept : label ∈ (scanFiles category all (skipped ++ file.skipped) rest).2 :=
            scanFiles_keeps (List.mem_append_right skipped hlabel)
          rw [h] at hkept
          cases hkept
        obtain ⟨hrest, hall⟩ := ih h
        refine ⟨List.forall_mem_cons.mpr ⟨hfile, hrest⟩, ?_⟩
        rw [hall, takePieces_whole htaken, List.flatMap_cons, FileScan.hits]
        simp only [List.append_assoc]

end AgentArtifacts.Security
