import CacheDepot.Depot.Basic

/-!
# Two tiers of stores

A value is looked for in a first store and then in a second one. What the second has is copied
into the first, for no longer than it lives in the second. A write goes to both, to the second
for twice the time.
-/

namespace CacheDepot.Depot

/-- How long a copy in the first tier lives: the shorter of what is asked for and what is left
in the second tier. -/
def promotionTtl (requested remaining : Option Duration) : Option Duration :=
  match requested, remaining with
  | some requested, some remaining => some (requested.shorter remaining)
  | requested, none => requested
  | none, remaining => remaining

/-- Reads the first tier and then the second. -/
def tierGet (d : Depot) (now : Nat) (first : String) (second : Option String) (key : CacheKey)
    (ttl : Option Duration) : Option Json × Depot :=
  let h1 := d.getCache first
  let (value, d) := d.getKey now h1 key
  match value, second with
  | some value, _ => (some value, d)
  | none, none => (none, d)
  | none, some second =>
    let (entry, d) := d.getEntry now (d.getCache second) key
    match entry with
    | none => (none, d)
    | some e =>
      let requested := ttl.or (d.store h1.cell).defaultTtl
      let ttl := promotionTtl requested ((e.remaining now).map .ofMillis)
      (some e.value, (d.setKey now h1 key e.value ttl).2)

/-- Writes the second tier and then the first. -/
def tierSet (d : Depot) (now : Nat) (first : String) (second : Option String) (key : CacheKey)
    (value : Json) (ttl : Option Duration) : Depot :=
  let d := match second with
    | some second => (d.setKey now (d.getCache second) key value (ttl.map Duration.doubled)).2
    | none => d
  (d.setKey now (d.getCache first) key value ttl).2

end CacheDepot.Depot
