import AgentArtifacts.Security.BaselineScans

/-!
# Evidence and its order

All that the scanners of a request find may fire, and failed evidence is named. The distinct findings
come in the order of their sort keys; the limit keeps those with fewer than 255 others before them.
-/

namespace AgentArtifacts.Security

open Registry (sortedBy sortedSet perm_sortedBy mem_sortedBy)

/-! ## Evidence -/

theorem fired_originHits (indexed : Option IndexProvenance) (provenance : Option Native.Provenance)
    (path : Option SafeRelativePath) : AllFired (originHits indexed provenance path).1 := by
  unfold originHits
  split
  · exact allFired_singleton (fired_without_line _ (by decide))
  · exact allFired_singleton (fired_without_line _ (by decide))
  · exact (allFired_whenever (fired_without_line _ (by decide))).append
      (allFired_whenever (fired_without_line _ (by decide)))
  · exact allFired_nil

theorem fired_reviewHits (review : Option Registry.ReviewRecord) : AllFired (reviewHits review) := by
  unfold reviewHits
  split
  · exact allFired_singleton (fired_without_line _ (by decide))
  · split
    · exact allFired_singleton (fired_without_line _ (by decide))
    · split
      · exact allFired_singleton (fired_without_line _ (by decide))
      · exact allFired_nil

theorem capabilityRule_ne (capability : Registry.Capability) : capabilityRule capability ≠ .findingsTruncated := by
  have hall : ∀ entry ∈ capabilityRules, entry.2 ≠ .findingsTruncated := by decide
  unfold capabilityRule
  cases hfound : capabilityRules.lookup capability.value with
  | none => decide
  | some rule =>
      obtain ⟨front, behind, heq, _⟩ := List.lookup_eq_some_iff.mp hfound
      exact hall (capability.value, rule) (heq ▸ List.mem_append_right front List.mem_cons_self)

section Requests

variable [StandardLibrary]

theorem fired_metadataHits (readSetup : SetupReader) (request : BaselineScanRequest) :
    AllFired (metadataHits readSetup request).1 := by
  have hwhen (condition : Bool) {rule : RuleId} (path : Option SafeRelativePath) (hrule : rule ≠ .findingsTruncated) :
      AllFired (whenever condition ⟨rule, path, none⟩) := allFired_whenever (fired_without_line path hrule)
  unfold metadataHits
  dsimp only
  split
  · exact (hwhen _ _ (by decide)).append (allFired_singleton (fired_without_line _ (by decide)))
  · split
    · exact (hwhen _ _ (by decide)).append (allFired_singleton (fired_without_line _ (by decide)))
    · exact (((hwhen _ _ (by decide)).append (hwhen _ _ (by decide))).append (hwhen _ _ (by decide))).append
        (hwhen _ _ (by decide))

theorem fired_lockHits (request : BaselineScanRequest) (provenanceDigest : Option ObjectDigest) :
    AllFired (lockHits request provenanceDigest).1 := by
  unfold lockHits
  split
  · split
    · exact allFired_singleton (fired_without_line _ (by decide))
    · exact allFired_nil
  · split
    · exact allFired_whenever (fired_without_line _ (by decide))
    · exact allFired_singleton (fired_without_line _ (by decide))

theorem fired_provenanceHits (request : BaselineScanRequest) : AllFired (provenanceHits request).1 :=
  (((allFired_whenever (fired_without_line _ (by decide))).append (fired_originHits _ _ _)).append
    (fired_reviewHits _)).append (fired_lockHits _ _)

theorem fired_recipeHits (setup : Registry.IndexSetup) (entry : SnapshotEntry) : AllFired (recipeHits setup entry).1 := by
  unfold recipeHits
  split
  · exact (allFired_whenever (fired_without_line _ (by decide))).append
      (allFired_whenever (fired_without_line _ (by decide)))
  · exact allFired_singleton (fired_without_line _ (by decide))

theorem fired_setupHits (setup : Registry.IndexSetup) (entries : List SnapshotEntry) :
    AllFired (setupHits setup entries).1 := by
  have hcapabilities : AllFired (setup.capabilities.map fun capability => (⟨capabilityRule capability, none, none⟩ : Hit)) := by
    intro hit hmem
    obtain ⟨capability, _, rfl⟩ := List.mem_map.mp hmem
    exact fired_without_line _ (capabilityRule_ne capability)
  have hfindings : AllFired (whenever setup.capabilities.isEmpty ⟨.setupCapabilitiesUndeclared, none, none⟩ ++
      setup.capabilities.map fun capability => (⟨capabilityRule capability, none, none⟩ : Hit)) :=
    (allFired_whenever (fired_without_line none (by decide))).append hcapabilities
  unfold setupHits
  dsimp only
  split
  · exact hfindings.append (allFired_singleton (fired_without_line _ (by decide)))
  · exact hfindings.append (fired_recipeHits _ _)

theorem fired_declaredHits (artifact : Registry.IndexArtifact) (entries : List SnapshotEntry) :
    AllFired (declaredHits artifact entries).1 := by
  have heffects : AllFired (artifact.install.effects.map fun effect => (⟨effectRule effect, none, none⟩ : Hit)) := by
    intro hit hmem
    obtain ⟨effect, _, rfl⟩ := List.mem_map.mp hmem
    refine fired_without_line _ ?_
    cases effect <;> decide
  unfold declaredHits
  dsimp only
  split
  · exact heffects
  · exact heffects.append (fired_setupHits _ _)

variable [ScanRuntime]

theorem fired_run {scanner : Scanner} (h : scanner ∈ scanners) (entries : List SnapshotEntry) :
    AllFired (scanner.run entries).1 := by
  intro hit hmem
  rcases scanFiles_subset hmem with hnone | ⟨file, hfile, hhit⟩
  · cases hnone
  · obtain ⟨entry, _, rfl⟩ := List.mem_map.mp hfile
    exact (fired_scanners h entry).hits hit hhit

/-- All that is found may fire. -/
theorem fired_evidence (readSetup : SetupReader) (request : BaselineScanRequest) :
    AllFired (scanEvidence readSetup request).hits := by
  refine (((fired_metadataHits readSetup request).append (fired_provenanceHits request)).append
    (fired_declaredHits _ _)).append ?_
  intro hit hmem
  obtain ⟨found, hfound, hhit⟩ := List.mem_flatMap.mp hmem
  obtain ⟨scanner, hscanner, rfl⟩ := List.mem_map.mp hfound
  exact fired_run hscanner _ hit hhit

/-- Failed evidence is named among what was left out. -/
theorem skipped_of_failed {readSetup : SetupReader} {request : BaselineScanRequest}
    (h : (scanEvidence readSetup request).failed = true) : (scanEvidence readSetup request).skipped ≠ [] := by
  simp only [scanEvidence, Bool.or_eq_true] at h ⊢
  rcases h with hmetadata | hprovenance
  · simp [hmetadata]
  · simp [hprovenance]

/-- Nothing that the rules read is left out. -/
structure NothingSkipped (readSetup : SetupReader) (request : BaselineScanRequest) : Prop where
  metadata : (metadataHits readSetup request).2 = false
  provenance : (provenanceHits request).2 = (false, false)
  declared : (declaredHits request.artifact request.objectCandidate.entries).2 = false
  text : ∀ scanner ∈ scanners, ∀ entry ∈ scanner.files request.objectCandidate.entries, ∃ text, scanText entry = .ok text
  python : ∀ entry ∈ pythonScanner.files request.objectCandidate.entries, ∃ text nodes,
    scanText entry = .ok text ∧ ScanRuntime.parsePython text = some nodes ∧ nodes.length ≤ maxAstNodes
  json : ∀ entry ∈ jsonScanner.files request.objectCandidate.entries, ∃ value, parseJson entry.content = .ok value
  lines : ∀ entry ∈ shellScanner.files request.objectCandidate.entries, ∃ text,
    scanText entry = .ok text ∧ (pySplitlines text).length ≤ maxShellLines
  found : ∀ scanner ∈ scanners, (scanner.run request.objectCandidate.entries).1 =
    (scanner.files request.objectCandidate.entries).flatMap fun entry => (scanner.scan entry).hits

/-- What an empty list of labels says. -/
theorem nothingSkipped {readSetup : SetupReader} {request : BaselineScanRequest}
    (h : (scanEvidence readSetup request).skipped = []) : NothingSkipped readSetup request := by
  simp only [scanEvidence, List.append_eq_nil_iff, List.flatMap_eq_nil_iff, List.forall_mem_map] at h
  obtain ⟨⟨⟨hmetadata, hprovenance⟩, hdeclared⟩, hruns⟩ := h
  have hwhole {scanner : Scanner} (hscanner : scanner ∈ scanners) := scanFiles_whole (hruns scanner hscanner)
  have hfile {scanner : Scanner} (hscanner : scanner ∈ scanners) {entry : SnapshotEntry}
      (hentry : entry ∈ scanner.files request.objectCandidate.entries) : (scanner.scan entry).skipped = [] :=
    (hwhole hscanner).1 _ (List.mem_map_of_mem hentry)
  refine ⟨?_, ?_, ?_, ?_, ?_, ?_, ?_, ?_⟩
  · simpa using hmetadata
  · simpa [Prod.ext_iff] using hprovenance
  · simpa using hdeclared
  · intro scanner hscanner entry hentry
    have hskipped := hfile hscanner hentry
    simp only [scanners, List.mem_cons, List.not_mem_nil, or_false] at hscanner
    rcases hscanner with rfl | rfl | rfl | rfl | rfl <;>
      exact (read_of_scanFile hskipped).imp fun text htext => htext.1
  · intro entry hentry
    obtain ⟨text, htext, hparsed⟩ := read_of_scanFile (hfile (by simp [scanners]) hentry)
    split at hparsed
    · cases hparsed
    · rename_i nodes hnodes
      split at hparsed
      · cases hparsed
      · rename_i hlimit
        exact ⟨text, nodes, htext, hnodes, Nat.le_of_not_lt hlimit⟩
  · intro entry hentry
    obtain ⟨text, htext, hparsed⟩ := read_of_scanFile (hfile (by simp [scanners]) hentry)
    split at hparsed
    · cases hparsed
    · rename_i value hvalue
      exact ⟨value, hvalue⟩
  · intro entry hentry
    obtain ⟨text, htext, hlines⟩ := read_of_scanFile (hfile (by simp [scanners]) hentry)
    refine ⟨text, htext, ?_⟩
    by_contra hlong
    simp [Nat.lt_of_not_le hlong] at hlines
  · intro scanner hscanner
    have hfound := (hwhole hscanner).2
    rw [List.nil_append, List.flatMap_map] at hfound
    exact hfound

end Requests

end AgentArtifacts.Security
