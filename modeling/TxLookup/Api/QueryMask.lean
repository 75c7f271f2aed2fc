import TxLookup.Api.Audit

/-!
# Masked queries

The output of `mask_query` is a function of the decoded pairs with the sensitive
values struck out, and decoding it gives these pairs back. So it tells nothing
about a sensitive value, keeps everything else, and masking it again changes
nothing. Case folding is a parameter: any function of the key will do.
-/
namespace TxLookup.Api

open Library Library.PyText Library.FormUrl Db

variable (lowerOf : PyStr → PyStr) (sensitiveKeys : List PyStr)

/-- The key of the pair is one of the sensitive keys, in whatever case. -/
def Sensitive (pair : PyStr × PyStr) : Prop := lowerOf pair.1 ∈ sensitiveKeys.map lowerOf

instance (pair : PyStr × PyStr) : Decidable (Sensitive lowerOf sensitiveKeys pair) :=
  inferInstanceAs (Decidable (_ ∈ _))

/-- One round of the loop over the decoded pairs. -/
def maskPair (pair : PyStr × PyStr) : PyStr × PyStr :=
  if Sensitive lowerOf sensitiveKeys pair then (pair.1, py "***") else pair

/-- The lists have the same keys, and the same values but for sensitive keys. -/
def SameButSecrets (pairs pairs' : List (PyStr × PyStr)) : Prop :=
  List.Forall₂ (fun pair pair' =>
    pair'.1 = pair.1 ∧ (pair'.2 = pair.2 ∨ Sensitive lowerOf sensitiveKeys pair)) pairs pairs'

variable {lowerOf sensitiveKeys}

/-- A masked pair is masked: its key is the same and decides alone. -/
theorem maskPair_maskPair (pair : PyStr × PyStr) :
    maskPair lowerOf sensitiveKeys (maskPair lowerOf sensitiveKeys pair) =
      maskPair lowerOf sensitiveKeys pair := by
  by_cases h : Sensitive lowerOf sensitiveKeys pair
  · have hmask : maskPair lowerOf sensitiveKeys pair = (pair.1, py "***") := if_pos h
    rw [hmask]
    exact if_pos h
  · have hmask : maskPair lowerOf sensitiveKeys pair = pair := if_neg h
    rw [hmask, hmask]

theorem maskPair_congr {pair pair' : PyStr × PyStr} (hkey : pair'.1 = pair.1)
    (hvalue : pair'.2 = pair.2 ∨ Sensitive lowerOf sensitiveKeys pair) :
    maskPair lowerOf sensitiveKeys pair' = maskPair lowerOf sensitiveKeys pair := by
  rcases hvalue with hvalue | hs
  · rw [Prod.ext hkey hvalue]
  · have hs' : Sensitive lowerOf sensitiveKeys pair' := by
      rw [Sensitive, hkey]
      exact hs
    rw [maskPair, maskPair, if_pos hs, if_pos hs', hkey]

theorem SameButSecrets.masked {pairs pairs' : List (PyStr × PyStr)}
    (h : SameButSecrets lowerOf sensitiveKeys pairs pairs') :
    pairs'.map (maskPair lowerOf sensitiveKeys) = pairs.map (maskPair lowerOf sensitiveKeys) := by
  induction h with
  | nil => rfl
  | cons hpair _ ih => rw [List.map_cons, List.map_cons, ih, maskPair_congr hpair.1 hpair.2]

theorem SameButSecrets.ne_nil {pairs pairs' : List (PyStr × PyStr)}
    (h : SameButSecrets lowerOf sensitiveKeys pairs pairs') (hne : pairs ≠ []) : pairs' ≠ [] := by
  intro hnil
  rw [hnil, SameButSecrets, List.forall₂_nil_right_iff] at h
  exact hne h

theorem wellFormedTexts_maskPair {pair : PyStr × PyStr} (h : WellFormedTexts pair) :
    WellFormedTexts (maskPair lowerOf sensitiveKeys pair) := by
  unfold maskPair
  split
  · exact ⟨h.1, rfl⟩
  · exact h

/-! ## What the output depends on -/

theorem query_ne_nil {query : PyStr} (h : parseQsl query ≠ []) : query ≠ [] := by
  rintro rfl
  exact h rfl

/-- What the caller gets of the encoded pairs. -/
def encodedResult : Option PyStr → Except ApiExc (Option PyStr)
  | some text => .ok (some text)
  | none => .error (.other (py "surrogates not allowed"))

/-- The output depends on the masked pairs alone. -/
theorem maskQuery_eq {query : PyStr} (hne : query ≠ []) :
    maskQuery lowerOf query sensitiveKeys =
      encodedResult (urlencode ((parseQsl query).map (maskPair lowerOf sensitiveKeys))) := by
  rw [maskQuery, if_neg hne]
  rfl

/-- Queries that differ in sensitive values only have one output. -/
theorem SameButSecrets.maskQuery {query query' : PyStr} (hpairs : parseQsl query ≠ [])
    (h : SameButSecrets lowerOf sensitiveKeys (parseQsl query) (parseQsl query')) :
    maskQuery lowerOf query' sensitiveKeys = maskQuery lowerOf query sensitiveKeys := by
  rw [maskQuery_eq (query_ne_nil hpairs), maskQuery_eq (query_ne_nil (h.ne_nil hpairs)), h.masked]

/-- The output of a well-formed query decodes to the masked pairs. -/
theorem maskQuery_decodes {query : PyStr} (hformed : wellFormed query = true)
    (hpairs : parseQsl query ≠ []) :
    ∃ text, maskQuery lowerOf query sensitiveKeys = .ok (some text) ∧
      parseQsl text = (parseQsl query).map (maskPair lowerOf sensitiveKeys) := by
  have hmasked : ∀ pair ∈ (parseQsl query).map (maskPair lowerOf sensitiveKeys),
      WellFormedTexts pair := by
    intro pair hpair
    obtain ⟨pair', hpair', rfl⟩ := List.mem_map.mp hpair
    exact wellFormedTexts_maskPair (wellFormed_parseQsl hformed pair' hpair')
  obtain ⟨text, hencode, hparse⟩ :=
    parseQsl_urlencode (fun hnil => hpairs (List.map_eq_nil_iff.mp hnil)) hmasked
  refine ⟨text, ?_, hparse⟩
  rw [maskQuery_eq (query_ne_nil hpairs), hencode]
  rfl

/-- A masked query reveals no sensitive value, decodes to the pairs of the query
with these values struck out, and is a fixed point of the masking. -/
theorem masked_query_law (lowerOf : PyStr → PyStr) (query : PyStr) (sensitiveKeys : List PyStr)
    (hformed : wellFormed query = true) (hpairs : parseQsl query ≠ []) :
    (∀ query', SameButSecrets lowerOf sensitiveKeys (parseQsl query) (parseQsl query') →
        maskQuery lowerOf query' sensitiveKeys = maskQuery lowerOf query sensitiveKeys) ∧
      ∃ text, maskQuery lowerOf query sensitiveKeys = .ok (some text) ∧
        parseQsl text = (parseQsl query).map (maskPair lowerOf sensitiveKeys) ∧
        maskQuery lowerOf text sensitiveKeys = .ok (some text) := by
  refine ⟨fun query' h => h.maskQuery hpairs, ?_⟩
  obtain ⟨text, hmask, hparse⟩ := @maskQuery_decodes lowerOf sensitiveKeys query hformed hpairs
  refine ⟨text, hmask, hparse, ?_⟩
  have htext : parseQsl text ≠ [] := by
    rw [hparse]
    exact fun hnil => hpairs (List.map_eq_nil_iff.mp hnil)
  have hsame : (parseQsl text).map (maskPair lowerOf sensitiveKeys) =
      (parseQsl query).map (maskPair lowerOf sensitiveKeys) := by
    rw [hparse, List.map_map]
    exact List.map_congr_left fun pair _ => maskPair_maskPair pair
  rw [← hmask, maskQuery_eq (query_ne_nil htext), maskQuery_eq (query_ne_nil hpairs), hsame]

/-- A repeated key in two cases, a blank key, an empty segment, escapes that are
and are not valid UTF-8, and a literal plus. -/
def trickyQuery : PyStr := py "Token=a%20b&&=x&note=%C3%A9+%FF%2&TOKEN&plus=%2B"

theorem trickyQuery_masked :
    (∀ query', SameButSecrets lower [py "token"] (parseQsl trickyQuery) (parseQsl query') →
        maskQuery lower query' [py "token"] = maskQuery lower trickyQuery [py "token"]) ∧
      ∃ text, maskQuery lower trickyQuery [py "token"] = .ok (some text) ∧
        parseQsl text = (parseQsl trickyQuery).map (maskPair lower [py "token"]) ∧
        maskQuery lower text [py "token"] = .ok (some text) :=
  masked_query_law lower trickyQuery [py "token"] (by decide) (by decide)

/-! ## The audit row -/

/-- Requests that differ in the values of configured keys only leave one audit row. -/
theorem buildAuditFields_secrets {config : AuthConfig} {request : Request} {query' : PyStr}
    (hpairs : parseQsl request.query ≠ [])
    (h : SameButSecrets lowerOf (splitCsv config.auditMaskQueryKeys) (parseQsl request.query)
      (parseQsl query'))
    (now : DateTime) (actor : AuditActor) (action resourceType : PyStr) (resourceId : Option PyStr)
    (result : PyStr) (statusCode : Nat) (durationMs : Option Int) (resultCount : Option Nat) :
    buildAuditFields lowerOf config now actor action resourceType resourceId result statusCode
        { request with query := query' } durationMs resultCount =
      buildAuditFields lowerOf config now actor action resourceType resourceId result statusCode
        request durationMs resultCount := by
  unfold buildAuditFields
  rw [h.maskQuery hpairs]
  rfl

end TxLookup.Api
