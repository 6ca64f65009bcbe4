import AgentArtifacts.Lifecycle.Check
import AgentArtifacts.Lifecycle.Retention

/-!
# What was installed is current

A check with the catalog and the configuration an installation was planned with finds the artifact
current, unless the catalog's view of the source is not of the source as it is configured.
-/

namespace AgentArtifacts

/-- What the constructor of a catalog checks of its sources. -/
structure MarketplaceCatalog.Bound (catalog : MarketplaceCatalog) : Prop where
  aliases : (catalog.sources.map (·.sourceAlias)).Nodup
  items : ∀ item ∈ catalog.items, item.source ∈ catalog.sources

section Fresh

variable {catalog : MarketplaceCatalog} {item : MarketplaceItem} {inputs : PlanningInputs} {record : InstallationRecord}
  {state : InstallState} {configured : ConfiguredSource} {source : SourceEvidence} {age : Nat} {digest : ObjectDigest}

theorem catalogSource_item (h : catalog.Bound) (hitem : item ∈ catalog.items) :
    catalogSource catalog item.source.sourceAlias = some item.source := by
  refine find?_unique (h.items item hitem) (beq_self_eq_true _) ?_
  intro view hview hsame
  exact List.inj_on_of_nodup_map h.aliases hview (h.items item hitem) (beq_iff_eq.mp hsame)

theorem currentItem_eq_some (hitem : item ∈ inputs.catalog.items) (h : RecordsAt record item) :
    currentItem inputs record = some item := by
  refine find?_unique hitem (by simpa [RecordsAt] using h) ?_
  intro other hother hfound
  exact eq_of_recordsAt hother hitem (by simpa [RecordsAt] using hfound) h

/-- The evidence of a source is the catalog's view of it and the configured ref. -/
theorem resolvedSource_eq_some (h : resolvedSource inputs item = some (configured, source, age, digest)) :
    configuredSource inputs.effective item.source.sourceAlias = some configured ∧
      item.source.resolvedRevision = some source.resolvedCommit ∧ item.source.snapshotDigest = some digest ∧
      ∃ declared, item.source.sourceId = some declared ∧ source =
        ⟨item.source.sourceAlias, declared, item.source.kind, item.source.origin, source.resolvedCommit, configured.ref⟩ := by
  simp only [resolvedSource, bind, Option.bind_eq_some_iff, pure, Option.some.injEq, Prod.mk.injEq] at h
  obtain ⟨_, hconfigured, declared, hid, _, hrevision, _, hsnapshot, _, _, rfl, rfl, _, rfl⟩ := h
  exact ⟨hconfigured, hrevision, hsnapshot, declared, hid, rfl⟩

/-- A record of what was just resolved is current where the view has the kind and the origin that
are configured; what else is compared was taken from the two. -/
theorem checkItem_resolved (h : inputs.catalog.Bound) (hitem : item ∈ inputs.catalog.items)
    (hsource : resolvedSource inputs item = some (configured, record.source, age, digest))
    (hhealth : [HealthStatus.healthy, .stale, .degraded].contains item.source.health = true)
    (hartifact : record.artifact = artifactEvidence item.artifact) :
    (checkItem inputs record).status =
      if configured.kind = item.source.kind ∧ configuredOrigin inputs.services configured = some item.source.origin then
        .current
      else .sourceUnavailable := by
  have hrecords : RecordsAt record item := ⟨(resolvedSource_alias hsource).symm, by rw [hartifact]; rfl⟩
  have hsame : sameArtifact item.artifact record = true := by
    simp [sameArtifact, hartifact, artifactEvidence]
  obtain ⟨hconfigured, hrevision, hsnapshot, declared, hid, hrecord⟩ := resolvedSource_eq_some hsource
  have hkept : recordedIdentityChanged inputs record = false := by
    rw [recordedIdentityChanged, hrecord, catalogSource_item h hitem]
    simp [hid]
  have hcurrent : recordedSubscriptionCurrent inputs record =
      decide (configured.kind = item.source.kind ∧
        configuredOrigin inputs.services configured = some item.source.origin) := by
    rw [recordedSubscriptionCurrent, hrecord, hconfigured, catalogSource_item h hitem, Bool.eq_iff_iff]
    simpa [hrevision, hsnapshot, or_assoc] using fun _ _ => hhealth
  simp only [checkItem, hcurrent, hkept, currentItem_eq_some hitem hrecords, hsame]
  by_cases hview : configured.kind = item.source.kind ∧ configuredOrigin inputs.services configured = some item.source.origin
  · rw [if_pos hview, decide_eq_true hview]
    rfl
  · rw [if_neg hview, decide_eq_false hview]
    rfl

/-- The coordinate, the profile and the scope of a record select no other one. -/
theorem selectInstallations_record (h : record ∈ state.installations) :
    selectInstallations state ⟨record.scope, [record.coordinate], [record.profile]⟩ = [record] := by
  refine filter_unique (List.Nodup.of_map _ state.keysUnique) fun other => ?_
  constructor
  · rintro ⟨hother, hselected⟩
    have hsame : (other.scope = record.scope ∧ other.coordinate = record.coordinate) ∧ other.profile = record.profile := by
      simpa using hselected
    refine List.inj_on_of_nodup_map state.keysUnique hother h ?_
    rw [InstallationRecord.key, InstallationRecord.key, hsame.1.1, hsame.1.2, hsame.2]
  · rintro rfl
    exact ⟨h, by simp⟩

end Fresh

section Applied

variable [StandardLibrary] [ManifestCodec]

/-- An installation or update that is reported as done leaves a manifest in which a check with the
same inputs finds the artifact current exactly where the view of its source has the kind and the
origin that are configured, and the source unavailable elsewhere. -/
theorem applyPlan_checks_current {request : InstallRequest} {inputs : PlanningInputs} {ports : InstallReadPorts}
    {plan : InstallPlan} {faults : InstallFaults} {world : World} {outcome : InstallOutcome}
    (hprepared : prepareInstall request inputs ports = .ok plan) (hbound : inputs.catalog.Bound)
    (houtcome : (applyPlan faults world plan).outcome = some outcome) (hsucceeded : outcome.succeeded = true) :
    ∃ executable configured view,
      (applyPlan faults world plan).world.manifests plan.statePath =
        .file (installStateBytes plan.replacementState) executable ∧
      configuredSource inputs.effective plan.coordinate.source = some configured ∧
      catalogSource inputs.catalog plan.coordinate.source = some view ∧
      (checkInstallations plan.replacementState
          ⟨request.scope, [{ plan.coordinate with version := none }], [request.profile]⟩ inputs).items.map (·.status) =
        [if configured.kind = view.kind ∧ configuredOrigin inputs.services configured = some view.origin then .current
          else .sourceUnavailable] := by
  obtain ⟨made, hfrom, hdata⟩ := prepareInstall_eq_ok hprepared
  obtain ⟨executable, hmanifests⟩ := (applyPlan_installed houtcome hsucceeded).manifests
  obtain ⟨hitem, -⟩ := resolveArtifact_eq_ok hfrom.resolved
  have hhealth : [HealthStatus.healthy, .stale, .degraded].contains made.item.source.health = true := by
    have haccepted := plan.accepted
    simp only [InstallPlanData.valid, Bool.and_eq_true, and_assoc] at haccepted
    have hplan := haccepted.2.2.2.2.2.2.2.2.1
    rwa [hdata] at hplan
  have hcoordinate : plan.coordinate = made.item.coordinate := by rw [hdata]; rfl
  have hstate : plan.replacementState = made.replacement := by rw [hdata]; rfl
  -- The fresh record is the one its coordinate, profile and scope select.
  obtain ⟨fresh, hrecord⟩ : ∃ fresh, fresh = replacementRecord made.current request made.item.coordinate made.source
      (artifactEvidence made.item.artifact) made.operations := ⟨_, rfl⟩
  have hmem : fresh ∈ made.replacement.installations := (replacementState_eq_ok hfrom.replacement fresh).mpr (Or.inl hrecord)
  have hname : fresh.coordinate = { made.item.coordinate with version := none } := by
    rw [hrecord]
    show ArtifactCoordinate.mk made.source.sourceAlias _ none = _
    rw [resolvedSource_alias hfrom.source]
    rfl
  have hselected := selectInstallations_record hmem
  rw [hname, show fresh.scope = request.scope from hrecord ▸ rfl,
    show fresh.profile = request.profile from hrecord ▸ rfl] at hselected
  refine ⟨executable, made.configured, made.item.source, ?_, hcoordinate ▸ (resolvedSource_eq_some hfrom.source).1,
    hcoordinate ▸ catalogSource_item hbound hitem, ?_⟩
  · rw [hmanifests, Function.update_self]
  · have hsource : resolvedSource inputs made.item = some (made.configured, fresh.source, made.age, made.snapshotDigest) := by
      rw [hrecord]
      exact hfrom.source
    have hstatus := checkItem_resolved hbound hitem hsource hhealth (by rw [hrecord]; rfl)
    rw [hstate, hcoordinate, checkInstallations, hselected]
    simp only [List.map_cons, List.map_nil, hstatus]

end Applied

section Sample

attribute [local instance] plainLibrary styleManifests

/-- Right after the installation of the guideline its check comes to one status. -/
theorem applyPlan_checks_current_style :
    ∃ status, (checkInstallations firstStyle ⟨.project, [⟨⟨"team", Eq.refl true⟩, styleIdentity, none⟩],
      [⟨"claude", Eq.refl true⟩]⟩ firstInputs).items.map (·.status) = [status] := by
  have houtcome : (applyPlan {} styleWorld firstPlan).outcome = some _ := rfl
  obtain ⟨_, _, _, _, _, _, h⟩ := applyPlan_checks_current firstPlan_prepared ⟨by decide, by decide⟩ houtcome (by decide +kernel)
  exact ⟨_, h⟩

end Sample

end AgentArtifacts
