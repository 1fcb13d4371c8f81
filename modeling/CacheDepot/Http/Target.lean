/-!
# Request targets

A target names a path with an optional query, by itself or after a scheme and a host; or it is
only a host. A fragment is not part of it.
-/

namespace CacheDepot.Http

/-- The part of a request's target that handlers see. -/
structure Target where
  /-- The path; empty for a host. -/
  path : String
  /-- The path with its query, as written, and the root if both are empty; `none` for a host. -/
  pathAndQuery : Option String
  deriving DecidableEq, Repr

namespace Target

/-- What stands after the first `://`. -/
def afterScheme? : List Char → Option (List Char)
  | [] => none
  | ':' :: '/' :: '/' :: rest => some rest
  | _ :: rest => afterScheme? rest

/-- The root stands for an empty path. -/
def orRoot (cs : List Char) : String := if cs.isEmpty then "/" else String.ofList cs

/-- A path with an optional query. -/
def ofOrigin (cs : List Char) : Target :=
  let written := cs.takeWhile (· ≠ '#')
  ⟨orRoot (written.takeWhile (· ≠ '?')), some (orRoot written)⟩

/-- Reads a target. -/
def ofText (text : String) : Target :=
  let cs := text.toList
  match cs with
  | '/' :: _ => ofOrigin cs
  | ['*'] => ⟨"*", some "*"⟩
  | _ =>
    match afterScheme? cs with
    | some rest => ofOrigin (rest.dropWhile fun c => c ≠ '/' ∧ c ≠ '?' ∧ c ≠ '#')
    | none => ⟨"", none⟩

end Target
end CacheDepot.Http
