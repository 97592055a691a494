import DocTree.Yaml.Node

/-!
# Merging mappings

Under a merge key a mapping names others whose entries come in front of its own. Of two entries with
one key the later one gives the value, so an own entry wins over a merged one.
-/

namespace DocTree.Yaml

/-- The nodes of a collection that holds itself, by their number. -/
abbrev Knots := List (Nat × Node)

namespace Node

/-- The entry with the key for the mapping's own value made a plain one. -/
def plainKey : Node × Node → Node × Node
  | (.scalar t s m, v) => (.scalar (if t == Tag.value then Tag.str else t) s m, v)
  | (.unpaired t us m, v) => (.unpaired (if t == Tag.value then Tag.str else t) us m, v)
  | e => e

/-- The entries that are written in the mapping, merge keys left out. -/
def writtenEntries : Node → List (Node × Node)
  | .mapping _ _ es _ => (es.filter fun e => e.1.tag != Tag.merge).map plainKey
  | _ => []

/-- A fault in what stands under a merge key of the mapping that starts at `m`. -/
def mergeFault {α : Type} (m : Mark) (expected : String) (n : Node) : Except Error α :=
  .error (.marked (some ("while constructing a mapping", some m))
    ("expected " ++ expected ++ " for merging, but found " ++ n.kind.name) n.start)

variable (knots : Knots)

/-- A removed number makes a list shorter. -/
theorem length_erase_lt {id : Nat} {free : List Nat} (h : id ∈ free) :
    (free.erase id).length < free.length := by
  have := List.length_pos_of_mem h
  rw [List.length_erase_of_mem h]
  omega

mutual

/-- The entries of a mapping with the merged ones in front. `free` are the self-holding collections
that are not being merged already; of one that is, the written entries are taken. -/
def entriesOf (free : List Nat) : Node → Except Error (List (Node × Node))
  | .mapping id _ es m => do
    let (merged, own) ← mergeAll (free.erase id) m es
    return merged ++ own
  | .enclosing id _ _ _ =>
    match knots.lookup id with
    | none => .ok []
    | some n =>
      if h : id ∈ free then
        match n with
        | .mapping _ _ es m => do
          have := length_erase_lt h
          let (merged, own) ← mergeAll (free.erase id) m es
          return merged ++ own
        | _ => .ok []
      else .ok n.writtenEntries
  | _ => .ok []
termination_by n => (free.length, sizeOf n)
decreasing_by
  · have := List.length_erase_le (a := id) (l := free)
    simp_wf
    omega
  · simp_wf
    omega

/-- The merged entries and the own ones, from those that are written in a mapping at `m`. -/
def mergeAll (free : List Nat) (m : Mark) :
    List (Node × Node) → Except Error (List (Node × Node) × List (Node × Node))
  | [] => .ok ([], [])
  | (k, v) :: es => do
    if k.tag == Tag.merge then
      let here ← match v with
        | .sequence _ _ items _ => mergeItems free m items
        | .enclosing id _ .sequence _ =>
          if h : id ∈ free then
            match knots.lookup id with
            | some (.sequence _ _ items _) =>
              have := length_erase_lt h
              mergeItems (free.erase id) m items
            | _ => .ok []
          else .ok []
        | v =>
          if v.kind = .mapping then entriesOf free v
          else mergeFault m "a mapping or list of mappings" v
      let (merged, own) ← mergeAll free m es
      return (here ++ merged, own)
    else
      let (merged, own) ← mergeAll free m es
      return (merged, plainKey (k, v) :: own)
termination_by es => (free.length, sizeOf es)

/-- The entries of a list of mappings; the first of them is to win, so it comes last. -/
def mergeItems (free : List Nat) (m : Mark) : List Node → Except Error (List (Node × Node))
  | [] => .ok []
  | n :: ns => do
    if n.kind = .mapping then
      let here ← entriesOf free n
      let rest ← mergeItems free m ns
      return rest ++ here
    else mergeFault m "a mapping" n
termination_by ns => (free.length, sizeOf ns)

end
end Node
end DocTree.Yaml
