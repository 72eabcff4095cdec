import CastLint.Toml.Failure
import CastLint.Toml.Value

/-! A TOML document in the making. The table under the last header is kept apart from the others
until the next header comes. -/

namespace CastLint
namespace Toml

namespace Entries

def replace (key : String) (value : Value) : Entries → Entries
  | [] => []
  | (k, v) :: es => if k = key then (k, value) :: es else (k, v) :: replace key value es

def erase (key : String) (es : Entries) : Entries := es.filter (·.1 ≠ key)

end Entries

abbrev Change (β : Type) := TableForm → Entries → Except Cause (Entries × β)

/-- Changes the table at the end of a path, and makes the tables on the way that are missing. The
last of several tables under one key is the one that is meant. A dotted key leads only through
tables that such keys have made or that have no header of their own. -/
def changeWithin {β : Type} (change : Change β) (made : TableForm) :
    (seen path : List String) → Change β
  | _, [], form, es => change form es
  | seen, key :: keys, _, es =>
    let go := changeWithin change made (seen ++ [key]) keys
    match es.lookup key with
    | none => do
      let (inner, b) ← go made []
      return (es ++ [(key, .table made inner)], b)
    | some (.table .inline _) => .error (.extendsValue (seen ++ [key]) "inline table")
    | some (.table form inner) =>
      if made = .dotted && form = .header then .error (.duplicateKey key none)
      else do
        let (inner, b) ← go form inner
        return (Entries.replace key (.table form inner) es, b)
    | some (.tables items) => do
      let (last, b) ← go .header (items.getLast?.getD [])
      return (Entries.replace key (.tables (items.dropLast ++ [last])) es, b)
    | some v => .error (.extendsValue (seen ++ [key]) v.kind)

def addEntry (owner : List String) (path : List String) (key : String) (value : Value) (es : Entries) :
    Except Cause Entries := do
  let add : Change Unit := fun form inner =>
    if (form == .dotted) == path.isEmpty then .error (.duplicateKey key none)
    else if (inner.lookup key).isSome then .error (.duplicateKey key (some owner))
    else .ok (inner ++ [(key, value)], ())
  return (← changeWithin add .dotted [] path .header es).1

def changeInline (change : TableForm → Entries → Except Cause Entries) :
    (seen path : List String) → TableForm → Entries → Except Cause Entries
  | _, [], form, es => change form es
  | seen, key :: keys, _, es =>
    match es.lookup key with
    | none => do
      let inner ← changeInline change (seen ++ [key]) keys .dotted []
      return es ++ [(key, .table .dotted inner)]
    | some (.table form inner) =>
      if form = .dotted then do
        let inner ← changeInline change (seen ++ [key]) keys form inner
        return Entries.replace key (.table form inner) es
      else .error (.duplicateKey key none)
    | some v => .error (.extendsValue (seen ++ [key]) v.kind)

def inlineTable (pairs : List (List String × String × Value)) : Except Cause Entries :=
  pairs.foldlM add []
where
  add (es : Entries) : List String × String × Value → Except Cause Entries
  | (path, key, value) =>
    let insert (form : TableForm) (inner : Entries) : Except Cause Entries :=
      if (form == .dotted) == path.isEmpty || (inner.lookup key).isSome then
        .error (.duplicateKey key none)
      else .ok (inner ++ [(key, value)])
    changeInline insert [] path .inline es

structure Draft where
  /-- The tables under earlier headers. -/
  root : Entries := []
  /-- The table under the last header. -/
  current : Entries := []
  /-- The key of the last header, empty in front of the first. -/
  path : List String := []
  /-- The last header stands in double brackets. -/
  repeats : Bool := false
deriving Inhabited

namespace Draft

def add (draft : Draft) (path : List String) (key : String) (value : Value) :
    Except Cause Draft := do
  return { draft with current := ← addEntry draft.path path key value draft.current }

def close (draft : Draft) : Except Cause Entries :=
  match draft.path.getLast? with
  | none => .ok draft.current
  | some key =>
    let store : Change Unit := fun _ es =>
      match draft.repeats, es.lookup key with
      | true, some (.tables items) =>
        .ok (Entries.replace key (.tables (items ++ [draft.current])) es, ())
      | true, none => .ok (es ++ [(key, .tables [draft.current])], ())
      | false, none => .ok (es ++ [(key, .table .header draft.current)], ())
      | _, some _ => .error (.duplicateKey key (some draft.path.dropLast))
    (·.1) <$> changeWithin store .implied [] draft.path.dropLast .header draft.root

/-- Starts the table of a header. A table that only stands above others may still get a header of
its own. -/
def openTable (draft : Draft) (path : List String) : Except Cause Draft := do
  let key := path.getLast?.getD ""
  let take : Change Entries := fun _ es =>
    match es.lookup key with
    | none => .ok (es, [])
    | some (.table .implied inner) => .ok (Entries.erase key es, inner)
    | some _ => .error (.duplicateKey key (some path.dropLast))
  let (root, current) ← changeWithin take .implied [] path.dropLast .header (← draft.close)
  return ⟨root, current, path, false⟩

def openItem (draft : Draft) (path : List String) : Except Cause Draft := do
  let key := path.getLast?.getD ""
  let check : Change Unit := fun _ es =>
    match es.lookup key with
    | none => .ok (es ++ [(key, .tables [])], ())
    | some (.tables _) => .ok (es, ())
    | some _ => .error (.duplicateKey key (some path.dropLast))
  let (root, _) ← changeWithin check .implied [] path.dropLast .header (← draft.close)
  return ⟨root, [], path, true⟩

end Draft

end Toml
end CastLint
