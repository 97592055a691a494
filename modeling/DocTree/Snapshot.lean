import DocTree.FileSystem
import DocTree.Value

/-!
# Snapshots

A file system written down as a value: a text or bytes are a file, a mapping is a directory, and a
list of one text is a link.
-/

namespace DocTree

namespace Entry

mutual

/-- The entry that a value describes. -/
def ofValue? : Value → Option Entry
  | .null => some (.file [])
  | .str s => some (.file s.toUTF8.toList)
  | .bytes bs => some (.file bs)
  | .list [.str target] => some (.link target)
  | .map es => (ofEntries? es).map .directory
  | _ => none

/-- The named entries that a mapping describes. -/
def ofEntries? : List (Value × Value) → Option (List (String × Entry))
  | [] => some []
  | (k, v) :: es => do
    let .str n := k | none
    let e ← ofValue? v
    let rest ← ofEntries? es
    return (n, e) :: rest

end

end Entry

/-- The file system whose working directory holds what a value describes. -/
def FileSystem.ofValue? (v : Value) : Option FileSystem :=
  match v with
  | .null => some ⟨[("work", .directory [])], ["work"]⟩
  | v => match Entry.ofValue? v with
    | some (.directory es) => some ⟨[("work", .directory es)], ["work"]⟩
    | _ => none

end DocTree
