import CacheDepot.Proofs.Json.Unambiguous
import CacheDepot.Proofs.Key
import CacheDepot.ResponseCache

/-!
# Requests that share a response

The key of a response is made from the text of what tells requests apart. That text can be read
back, so two requests have one key only if they agree in the method, in the path with its query
and in what they accept, unless their two texts have one digest.
-/

namespace CacheDepot.ResponseCache

open Http (Request)

variable {r r' : Request}

/-- The fields of what tells requests apart, in the order of their names. -/
def identityFields (r : Request) : List (String × String) :=
  [("accept", (r.headers.text? "accept").getD ""), ("method", r.method),
    ("path", r.target.pathAndQuery.getD "/")]

theorem canonical_identity (r : Request) : (identity r).canonical = identity r := by
  have sorted : ¬ "method" < "accept" ∧ ¬ "path" < "accept" ∧ ¬ "path" < "method" := by decide
  have differ : "method" ≠ "accept" ∧ "path" ≠ "accept" ∧ "path" ≠ "method" := by decide
  simp only [identity, Json.canonical, Json.canonicalFields, Json.ofFields, Ordered.ofList,
    List.foldl, Ordered.insert, sorted, differ, if_false]

theorem identityFields_of_canonicalText
    (same : RawKey.canonicalText (identity r) = RawKey.canonicalText (identity r')) :
    identityFields r = identityFields r' := by
  rw [RawKey.canonicalText, RawKey.canonicalText, canonical_identity, canonical_identity] at same
  exact Json.text_textFields_inj same

/-- Requests with one key have the same method, the same path and query, a target that is only a
host counting as the root, and the same first `Accept` field, one that is absent or cannot be read
counting as empty. -/
theorem eq_of_key_eq (apart : ¬ RawKey.Collide (identity r) (identity r'))
    (same : key r = key r') :
    r.method = r'.method ∧ r.target.pathAndQuery.getD "/" = r'.target.pathAndQuery.getD "/" ∧
      (r.headers.text? "accept").getD "" = (r'.headers.text? "accept").getD "" := by
  have digests : RawKey.digest (identity r) = RawKey.digest (identity r') :=
    CacheKey.derive_inj.mp same
  have texts : RawKey.canonicalText (identity r) = RawKey.canonicalText (identity r') := by
    apply Decidable.byContradiction
    intro differ
    exact apart ⟨digests, differ⟩
  have fields := identityFields_of_canonicalText texts
  simp only [identityFields, List.cons.injEq, Prod.mk.injEq, true_and, and_true] at fields
  obtain ⟨accepts, methods, paths⟩ := fields
  exact ⟨methods, paths, accepts⟩

/-- A request for a page. -/
def pageRequest : Request := { target := .ofText "/page?n=1", headers := [("accept", "text/html")] }

/-- A request for the same page that carries more: a host, another field and a body. -/
def pageRequestWithBody : Request where
  target := .ofText "http://host/page?n=1"
  headers := [("x-id", "7"), ("accept", "text/html")]
  body := "text"

theorem eq_of_key_eq_pageRequest :
    pageRequest.method = pageRequestWithBody.method ∧
      pageRequest.target.pathAndQuery.getD "/" =
        pageRequestWithBody.target.pathAndQuery.getD "/" ∧
      (pageRequest.headers.text? "accept").getD "" =
        (pageRequestWithBody.headers.text? "accept").getD "" := by
  have alike : identity pageRequest = identity pageRequestWithBody := rfl
  apply eq_of_key_eq
  · rw [alike]
    exact RawKey.not_collide_self _
  · rw [key, key, alike]

/-- An `Accept` field that is empty or cannot be read is no other than none, and a target that is
only a host is no other than the root. -/
theorem key_eq_of_fallback :
    let root : Request := { target := .ofText "/" }
    let acceptsNothing : Request := { target := .ofText "/", headers := [("accept", "")] }
    let unreadable : Request := { target := .ofText "/", headers := [("accept", "é")] }
    let onlyHost : Request := { target := .ofText "host" }
    (acceptsNothing.headers.values "accept" ≠ root.headers.values "accept" ∧
      key acceptsNothing = key root ∧ ¬ RawKey.Collide (identity acceptsNothing) (identity root)) ∧
    (unreadable.headers.values "accept" ≠ root.headers.values "accept" ∧
      key unreadable = key root ∧ ¬ RawKey.Collide (identity unreadable) (identity root)) ∧
    (onlyHost.target.pathAndQuery ≠ root.target.pathAndQuery ∧
      key onlyHost = key root ∧ ¬ RawKey.Collide (identity onlyHost) (identity root)) := by
  intro root acceptsNothing unreadable onlyHost
  have share : ∀ r : Request, identity r = identity root →
      key r = key root ∧ ¬ RawKey.Collide (identity r) (identity root) := by
    intro r alike
    rw [key, key, alike]
    exact ⟨rfl, RawKey.not_collide_self _⟩
  exact ⟨⟨by decide, share _ rfl⟩, ⟨by decide, share _ rfl⟩, ⟨by decide, share _ rfl⟩⟩

end CacheDepot.ResponseCache
