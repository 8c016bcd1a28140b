/-! Entries: a list of keys with their values that keeps the order in which the keys came. Writing
a key that is present keeps its place and replaces its value. -/
namespace Intake

abbrev Entries (α β : Type) := List (α × β)

namespace Entries
variable {α β : Type} [DecidableEq α]

def get? (key : α) : Entries α β → Option β
  | [] => none
  | entry :: rest => if entry.1 = key then some entry.2 else get? key rest

def put (key : α) (value : β) : Entries α β → Entries α β
  | [] => [(key, value)]
  | entry :: rest => if entry.1 = key then (entry.1, value) :: rest else entry :: put key value rest

def erase (key : α) (entries : Entries α β) : Entries α β := entries.filter fun entry => entry.1 ≠ key

def keys (entries : Entries α β) : List α := entries.map (·.1)

def values (entries : Entries α β) : List β := entries.map (·.2)

/-- The entries of a list of pairs in which a key may be written more than once: the first place
and the last value count. -/
def ofPairs (pairs : List (α × β)) : Entries α β :=
  pairs.foldl (fun entries pair => put pair.1 pair.2 entries) []

/-- The keys of a list, each at its first place. -/
def distinct (keys : List α) : List α :=
  keys.foldl (fun kept key => if key ∈ kept then kept else kept ++ [key]) []

theorem get?_put (key other : α) (value : β) (entries : Entries α β) :
    get? other (put key value entries) = if key = other then some value else get? other entries := by
  induction entries with
  | nil => simp [put, get?]
  | cons entry rest ih => grind [put, get?]

theorem get?_erase (key other : α) (entries : Entries α β) :
    get? other (erase key entries) = if key = other then none else get? other entries := by
  induction entries with
  | nil => simp [erase, get?]
  | cons entry rest ih => grind [erase, get?]

end Entries
end Intake
