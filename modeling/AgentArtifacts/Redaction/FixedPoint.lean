import AgentArtifacts.Redaction.Shapes

/-!
# Redacting twice

After the five rules nothing is left for the rules on private keys, queries, assignments and
credentials, and hiding the credentials of a URL brings nothing back. So a second pass changes a
text exactly when it finds credentials in a URL that the first pass did not see there: when a later
rule has hidden the `/` or `@` that kept them from being seen.
-/

namespace AgentArtifacts.Redactor

open Substitution

/-- The mark in its parts. -/
abbrev valueMark : List Char := '[' :: "redacted".toList ++ [']']

/-- The rules after the one on URLs. -/
def hideValues (text : List Char) : List Char := hideCredentialShapes (hideAssignmentSecrets (hideQuerySecrets text))

/-- The five rules on the letters of a text. -/
def redacted (text : List Char) : List Char := hideValues (hideUrlCredentials (hidePrivateKeys text))

theorem redactText_toList (text : String) : (redactText text).toList = redacted text.toList := String.toList_ofList

/-! ## The scans -/

theorem scanned_keys (text : List Char) :
    Scanned privateKey ('[' :: "redacted private key".toList ++ [']']) text (hidePrivateKeys text) :=
  scanned_sub privateKey_sound text

theorem scanned_queries (text : List Char) : Scanned queryRule.finder valueMark text (hideQuerySecrets text) :=
  scanned_sub (queryRule.sound query_lawful) text

theorem scanned_assignments (text : List Char) : Scanned assignmentRule.finder valueMark text (hideAssignmentSecrets text) :=
  scanned_sub (assignmentRule.sound assignment_lawful) text

theorem scanned_credentials (text : List Char) : Scanned credentialShape valueMark text (hideCredentialShapes text) :=
  scanned_sub credentialShape_sound text

variable {text : List Char}

/-- A match on a URL is one of the rule and the `@` behind it. -/
theorem urlCredentials_eq {count length : Nat} (h : urlCredentials text = some (count, length)) :
    ∃ kept info rest, text = kept ++ info ++ '@' :: rest ∧ kept.length = count ∧ info.length + 1 = length ∧ info ≠ [] ∧
      urlRule.finder (kept ++ info ++ '@' :: rest) = some (kept.length, info.length) := by
  rw [urlCredentials, Option.map_eq_some_iff] at h
  obtain ⟨⟨first, second⟩, hfind, hpair⟩ := h
  obtain ⟨rfl, rfl⟩ := Prod.mk.inj hpair
  obtain ⟨kept, info, rest, rfl, rfl, rfl⟩ := (urlRule.sound url_lawful).parts hfind
  obtain ⟨_, hrun, hcloses⟩ := urlRule.finder_eq url_lawful hfind
  obtain ⟨rest, rfl⟩ := List.head?_eq_some_iff.mp (beq_iff_eq.mp hcloses)
  exact ⟨kept, info, rest, rfl, rfl, rfl, hrun.nonempty, hfind⟩

theorem urlCredentials_sound : Sound urlCredentials := by
  intro text count length h
  obtain ⟨kept, info, rest, rfl, rfl, rfl, _, _⟩ := urlCredentials_eq h
  refine ⟨Nat.succ_pos _, ?_⟩
  simp only [List.length_append, List.length_cons]
  omega

/-- The `@` that the match takes with it is put back by the mark. -/
theorem scanned_urls (text : List Char) : Scanned urlRule.finder valueMark text (hideUrlCredentials text) := by
  have h : Scanned urlCredentials "[redacted]@".toList text (hideUrlCredentials text) := scanned_sub urlCredentials_sound text
  generalize hideUrlCredentials text = out at h
  induction h with
  | done => exact .done
  | @skip c rest out hfind _ ih => exact .skip (by simpa [urlCredentials] using hfind) ih
  | @hit kept hidden rest out hfind hne _ ih =>
      obtain ⟨kept', info, rest', htext, hkept, hlength, hinfo, hseen⟩ := urlCredentials_eq hfind
      have hsplit : kept ++ (hidden ++ rest) = kept' ++ (info ++ ['@'] ++ rest') := by
        rw [← List.append_assoc, htext]
        simp
      obtain ⟨rfl, hbehind⟩ := List.append_inj hsplit hkept.symm
      obtain ⟨rfl, rfl⟩ := List.append_inj hbehind (by simpa using hlength.symm)
      have hat : urlRule.finder ('@' :: rest) = none := by rfl
      have hrest : Scanned urlRule.finder valueMark ('@' :: rest) ('@' :: out) := .skip hat ih
      have hhit := Scanned.hit hseen hinfo hrest
      have hmark : "[redacted]@".toList = valueMark ++ ['@'] := by decide
      rw [hmark]
      simpa using hhit

/-! ## What is left after the rules -/

/-- Nothing is left for a second pass but the credentials of a URL. -/
structure Settled (text : List Char) : Prop where
  keys : Free KeyBegins text
  queries : Stable queryRule IsQueryPrefix valueMark text
  assignments : Stable assignmentRule IsAssignmentPrefix valueMark text
  credentials : Free (fun part _ => IsCredential part) text

theorem keys_seen : Seen privateKey KeyBegins '[' "redacted".toList ']' := privateKey_seen (by decide)

theorem free_keys (text : List Char) : Free KeyBegins (hidePrivateKeys text) := by
  refine free_of_scanned (privateKey_seen (by decide)) (fun kept hidden rest h => ?_) (scanned_keys text)
  exact List.length_eq_zero_iff.mp (privateKey_eq h).1

/-- Another scan with the mark brings no key about. -/
theorem free_keys_of_scanned {find : Finder Char} {text out : List Char} (h : Scanned find valueMark text out)
    (hfree : Free KeyBegins text) : Free KeyBegins out := by
  have hhides : Hides valueMark Anything none text out := h.hides (fun _ _ _ _ _ => trivial) none
  exact hfree.hides keys_seen hhides

/-- What the rule on assignments hides lies within the values of a query. -/
theorem assignments_spare_queries :
    Sparing IsQueryPrefix queryRule.value '[' "redacted".toList ']' (AfterLead IsAssignmentPrefix assignmentRule.value) := by
  refine sparing_afterLead assignment_lawful.marks ?_ ?_
  · intro part d hpart hlast hmem
    have hall : ∀ d ∈ valueMark, ¬ (isSpace d = true ∨ d = ':' ∨ d = '=') := by decide
    exact hall d hmem (hpart.last hlast)
  · intro part part' _ _ _ c hc
    simp only [assignmentRule, isAssignedChar, Bool.and_eq_true, bne_iff_ne] at hc
    simp only [queryRule, isQueryChar, Bool.and_eq_true, bne_iff_ne]
    tauto

/-- What is shaped like a credential begins with a letter. -/
theorem credentials_spare {rule : ValueRule Char} {Leads : List Char → Prop}
    (hvalue : ∀ c ∈ "gxAs".toList, rule.value c = true) :
    Sparing Leads rule.value '[' "redacted".toList ']' (fun _ hidden _ => IsCredential hidden) := by
  refine sparing_of_head (fun _ _ _ _ h => h) (fun before hidden rest h => ?_)
  obtain ⟨c, hc, hhead⟩ := h.head
  have hall : ∀ c ∈ "gxAs".toList, c ∉ valueMark := by decide
  exact ⟨c, hhead, hvalue c hc, hall c hc⟩

/-- What the rule on URLs hides follows a slash. -/
theorem urls_spare {rule : ValueRule Char} {Leads : List Char → Prop}
    (hslash : ∀ part, Leads part → part.getLast? ≠ some '/') :
    Sparing Leads rule.value '[' "redacted".toList ']' (AfterLead IsUrlPrefix urlRule.value) := by
  refine sparing_afterLead url_lawful.marks ?_ ?_
  · intro part d hpart hlast
    rw [hpart.last hlast]
    decide
  · intro part part' hpart hpart' hsame
    obtain ⟨d, hlast⟩ : ∃ d, part'.getLast? = some d :=
      ⟨_, List.getLast?_eq_some_getLast (url_lawful.nonempty part' hpart')⟩
    rw [hlast, hpart'.last hlast] at hsame
    exact absurd hsame (hslash part hpart)

theorem hides_credentials (text : List Char) :
    Hides valueMark (fun _ hidden _ => IsCredential hidden) none text (hideCredentialShapes text) :=
  (scanned_credentials text).hides (fun _ _ _ _ h => (credential_of_hit h).2) none

theorem settled_hideValues (hfree : Free KeyBegins text) : Settled (hideValues text) where
  keys := free_keys_of_scanned (scanned_credentials _) (free_keys_of_scanned (scanned_assignments _)
    (free_keys_of_scanned (scanned_queries text) hfree))
  queries := by
    have hqueries := stable_of_scanned query_lawful (scanned_queries text)
    have hassigned := hqueries.hides query_lawful (fun _ => rfl) assignments_spare_queries
      (hides_of_scanned assignment_lawful (scanned_assignments _) none)
    exact hassigned.hides query_lawful (fun _ => rfl) (credentials_spare (by decide)) (hides_credentials _)
  assignments := by
    have hassigned := stable_of_scanned assignment_lawful (scanned_assignments (hideQuerySecrets text))
    exact hassigned.hides assignment_lawful (fun _ => rfl) (credentials_spare (by decide)) (hides_credentials _)
  credentials := free_of_scanned credential_seen (fun _ _ _ h => (credential_of_hit h).1) (scanned_credentials _)

/-- Hiding the credentials of a URL leaves it so. -/
theorem Settled.urls (h : Settled text) : Settled (hideUrlCredentials text) where
  keys := free_keys_of_scanned (scanned_urls text) h.keys
  queries := h.queries.hides query_lawful (fun _ => rfl)
    (urls_spare fun part hpart hlast => absurd (hpart.last hlast) (by decide))
    (hides_of_scanned url_lawful (scanned_urls text) none)
  assignments := h.assignments.hides assignment_lawful (fun _ => rfl)
    (urls_spare fun part hpart hlast => absurd (hpart.last hlast) (by decide))
    (hides_of_scanned url_lawful (scanned_urls text) none)
  credentials := h.credentials.hides credential_seen (hides_of_scanned url_lawful (scanned_urls text) none)

theorem Settled.hidePrivateKeys_eq (h : Settled text) : hidePrivateKeys text = text :=
  scan_of_free (privateKey_seen (by decide) : Seen privateKey KeyBegins '[' "redacted private key".toList ']') h.keys
    (scanned_keys text)

theorem Settled.hideValues_eq (h : Settled text) : hideValues text = text := by
  rw [hideValues, scan_of_stable query_lawful (scanned_queries text) h.queries,
    scan_of_stable assignment_lawful (scanned_assignments text) h.assignments,
    scan_of_free credential_seen h.credentials (scanned_credentials text)]

theorem settled_redacted (text : List Char) : Settled (redacted text) :=
  settled_hideValues (free_keys_of_scanned (scanned_urls _) (free_keys text))

/-- A second pass does what the rule on URLs does. -/
theorem redacted_again (text : List Char) : redacted (redacted text) = hideUrlCredentials (redacted text) := by
  have hsettled := settled_redacted text
  rw [redacted, hsettled.hidePrivateKeys_eq, hsettled.urls.hideValues_eq]

theorem hideUrlCredentials_eq_iff (text : List Char) :
    hideUrlCredentials text = text ↔ Stable urlRule IsUrlPrefix valueMark text := by
  constructor
  · intro h
    have hstable := stable_of_scanned url_lawful (scanned_urls text)
    rw [h] at hstable
    exact hstable
  · exact scan_of_stable url_lawful (scanned_urls text)

/-! ## Credentials that a later rule uncovers -/

/-- A scheme that the later rules leave, and behind it a stretch that the rule on URLs does not take
for credentials because of a letter in it, but that it takes for credentials once the later rules
have hidden what they hide of it. -/
def UncoversCredentials (text : String) : Prop :=
  ∃ before scheme info after left,
    hideUrlCredentials (hidePrivateKeys text.toList) = before ++ scheme ++ (info ++ '@' :: after) ∧
    IsUrlPrefix scheme ∧ scheme <:+ hideValues (before ++ scheme) ∧ (∃ c ∈ info, isUserInfoChar c = false) ∧
    hideValues (info ++ ['@']) = left ++ ['@'] ∧ left ≠ [] ∧ left ≠ valueMark ∧ ∀ c ∈ left, isUserInfoChar c = true

theorem passes_hideValues {e : Char} (hqueries : ∀ part, IsQueryPrefix part → e ∉ part)
    (hassignments : ∀ part, IsAssignmentPrefix part → e ∉ part) (hshapes : isShapeChar e = false) (hmark : e ∉ valueMark) :
    Passes hideValues e := by
  have hquery : Passes hideQuerySecrets e :=
    (queryRule.firm query_lawful (fun _ => rfl) hqueries hmark).passes (queryRule.sound query_lawful)
  have hassignment : Passes hideAssignmentSecrets e :=
    (assignmentRule.firm assignment_lawful (fun _ => rfl) hassignments hmark).passes (assignmentRule.sound assignment_lawful)
  have hshape : Passes hideCredentialShapes e := (credentialShape_firm hshapes hmark).passes credentialShape_sound
  have hassigned := hquery.comp hassignment (fun text h => eq_nil_of_sub (assignmentRule.sound assignment_lawful) (by decide) h)
  exact hassigned.comp hshape (fun text h => eq_nil_of_sub credentialShape_sound (by decide) h)

theorem passes_slash : Passes hideValues '/' :=
  passes_hideValues (fun _ hpart hmem => absurd (hpart.char hmem) (by decide))
    (fun _ hpart hmem => absurd (hpart.char hmem) (by decide)) (by decide) (by decide)

theorem passes_at : Passes hideValues '@' :=
  passes_hideValues (fun _ hpart hmem => absurd (hpart.char hmem) (by decide))
    (fun _ hpart hmem => absurd (hpart.char hmem) (by decide)) (by decide) (by decide)

/-- A scheme at the end of what is left stood at the end of the text. -/
theorem ends_of_scanned {find : Finder Char} {text front scheme : List Char} (hscheme : IsUrlPrefix scheme)
    (h : Scanned find valueMark text (front ++ scheme)) : ∃ before, text = before ++ scheme := by
  have hall : Hides valueMark Anything none text (front ++ scheme ++ []) := by
    rw [List.append_nil]
    exact h.hides (fun _ _ _ _ _ => trivial) none
  obtain ⟨first, rest, rfl, _, hrest⟩ := hall.split (url_lawful.nonempty scheme hscheme)
    (url_lawful.opening_free scheme hscheme) (url_lawful.closing_free scheme hscheme) (url_lawful.outside scheme hscheme)
    (fun _ _ _ _ _ => trivial)
  rcases hrest.inv with ⟨rfl, _⟩ | ⟨_, _, _, _, hout, _⟩ | ⟨_, _, _, _, hout, _⟩
  · exact ⟨first, List.append_nil _⟩
  · cases hout
  · cases hout

theorem ends_of_hideValues {text front scheme : List Char} (hscheme : IsUrlPrefix scheme)
    (h : hideValues text = front ++ scheme) : ∃ before, text = before ++ scheme := by
  have hshapes := scanned_credentials (hideAssignmentSecrets (hideQuerySecrets text))
  rw [← hideValues, h] at hshapes
  obtain ⟨middle, hmiddle⟩ := ends_of_scanned hscheme hshapes
  have hassignments := scanned_assignments (hideQuerySecrets text)
  rw [hmiddle] at hassignments
  obtain ⟨first, hfirst⟩ := ends_of_scanned hscheme hassignments
  have hqueries := scanned_queries text
  rw [hfirst] at hqueries
  exact ends_of_scanned hscheme hqueries

theorem IsUrlPrefix.exists_slash {scheme : List Char} (h : IsUrlPrefix scheme) : ∃ first, scheme = first ++ ['/'] := by
  obtain ⟨c, run, rfl, _⟩ := h
  exact ⟨c :: (run ++ [':', '/']), by simp⟩

/-- Where the later rules uncover credentials, what they leave holds them. -/
theorem not_stable_of_uncovers {text : String} (h : UncoversCredentials text) :
    ¬ Stable urlRule IsUrlPrefix valueMark (redacted text.toList) := by
  obtain ⟨before, scheme, info, after, left, htext, hscheme, ⟨front, hfront⟩, _, hleft, hne, hmark, hclean⟩ := h
  intro hstable
  obtain ⟨first, rfl⟩ := hscheme.exists_slash
  have hinfo : hideValues (info ++ '@' :: after) = left ++ '@' :: hideValues after :=
    (passes_at _ _ _).mpr ⟨info, after, rfl, hleft, rfl⟩
  have hwhole : hideValues (before ++ (first ++ ['/']) ++ (info ++ '@' :: after)) =
      front ++ first ++ '/' :: (left ++ '@' :: hideValues after) := by
    refine (passes_slash _ _ _).mpr ⟨before ++ first, info ++ '@' :: after, by simp, ?_, hinfo⟩
    rw [List.append_assoc, ← hfront, List.append_assoc]
  have hrun : Run urlRule.value left ('@' :: hideValues after) := by
    refine ⟨hne, hclean, fun c hc => ?_⟩
    obtain rfl := Option.some.inj hc
    decide
  refine hmark (hstable front (first ++ ['/']) left ('@' :: hideValues after) ?_ hscheme hrun rfl)
  rw [redacted, htext, hwhole]
  simp

/-- What the rule on URLs finds after the later rules, these have uncovered. -/
theorem uncovers_of_not_stable {text : String} (h : ¬ Stable urlRule IsUrlPrefix valueMark (redacted text.toList)) :
    UncoversCredentials text := by
  unfold Stable at h
  push Not at h
  obtain ⟨front, scheme, shown, after, hout, hscheme, hrun, hcloses, hmark⟩ := h
  obtain ⟨after, rfl⟩ := List.head?_eq_some_iff.mp (beq_iff_eq.mp hcloses)
  obtain ⟨first, rfl⟩ := hscheme.exists_slash
  have hslash : hideValues (hideUrlCredentials (hidePrivateKeys text.toList)) =
      front ++ first ++ '/' :: (shown ++ '@' :: after) := by
    rw [← redacted, hout]
    simp
  obtain ⟨whole, rest, htext, hwhole, hrest⟩ := (passes_slash _ _ _).mp hslash
  obtain ⟨info, behind, rfl, hinfo, _⟩ := (passes_at _ _ _).mp hrest
  rw [List.append_assoc] at hwhole
  obtain ⟨before, hbefore⟩ := ends_of_hideValues hscheme hwhole
  have hsplit : hideUrlCredentials (hidePrivateKeys text.toList) = before ++ (first ++ ['/']) ++ (info ++ '@' :: behind) := by
    rw [htext, ← hbefore]
    simp
  refine ⟨before, first ++ ['/'], info, behind, shown, hsplit, hscheme, ?_, ?_, hinfo, hrun.nonempty, hmark, hrun.values⟩
  · rw [← hbefore, hwhole]
    exact List.suffix_append _ _
  · -- Otherwise the rule on URLs would have put its mark there.
    by_contra hunclean
    have hclean : ∀ c ∈ info, isUserInfoChar c = true := by
      intro c hc
      by_contra hfalse
      exact hunclean ⟨c, hc, by simpa using hfalse⟩
    have hne : info ≠ [] := by
      rintro rfl
      have hnone : hideValues ([] ++ ['@']) = [] ++ ['@'] := by decide
      rw [hnone] at hinfo
      exact hrun.nonempty (List.append_cancel_right hinfo).symm
    have hinside : Run urlRule.value info ('@' :: behind) := by
      refine ⟨hne, hclean, fun c hc => ?_⟩
      obtain rfl := Option.some.inj hc
      decide
    have hstable := stable_of_scanned url_lawful (scanned_urls (hidePrivateKeys text.toList))
    have hvalue := hstable before (first ++ ['/']) info ('@' :: behind) (by rw [hsplit, List.append_assoc]) hscheme hinside rfl
    have hkept : hideValues (valueMark ++ ['@']) = valueMark ++ ['@'] := by decide
    rw [hvalue, hkept] at hinfo
    exact hmark (List.append_cancel_right hinfo).symm

/-- No credential and no private key is left; and a second pass changes nothing exactly when the
later rules uncover no credentials of a URL. -/
theorem redactText_again_iff (text : String) :
    (redactText (redactText text) = redactText text ↔ ¬ UncoversCredentials text) ∧
      containsCredentialShape (redactText text) = false := by
  have hsettled := settled_redacted text.toList
  constructor
  · have hletters : redactText (redactText text) = redactText text ↔ redacted (redacted text.toList) = redacted text.toList := by
      rw [← String.toList_inj, redactText_toList, redactText_toList]
    rw [hletters, redacted_again, hideUrlCredentials_eq_iff]
    constructor
    · intro hstable huncovers
      exact not_stable_of_uncovers huncovers hstable
    · intro hcovered
      by_contra hstable
      exact hcovered (uncovers_of_not_stable hstable)
  · rw [containsCredentialShape, redactText_toList, hsettled.credentials.search credential_seen, hsettled.keys.search keys_seen]
    rfl

/-- The value of a query holds the slash that hides credentials from the first pass. -/
theorem redactText_uncovers :
    ¬ redactText (redactText "http://h?token=a/b&x@c") = redactText "http://h?token=a/b&x@c" := by
  decide +kernel

end AgentArtifacts.Redactor
