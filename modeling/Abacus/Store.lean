import Abacus.Integer

/-! # Stores

The variables of a run and their values, in ascending order of the names. A name
enters the store when it is first set and never leaves it. -/

namespace Abacus

@[ext]
structure Store where
  entries : List (String × Int64)
  ascending : entries.Pairwise fun first second => first.1 < second.1
deriving DecidableEq

namespace Store

def empty : Store := ⟨[], .nil⟩

instance : Inhabited Store := ⟨empty⟩

def lookup (name : String) : List (String × Int64) → Option Int64
  | [] => none
  | entry :: rest => if entry.1 = name then some entry.2 else lookup name rest

def get? (store : Store) (name : String) : Option Int64 :=
  lookup name store.entries

def contains (store : Store) (name : String) : Bool :=
  (store.get? name).isSome

def size (store : Store) : Nat := store.entries.length

def isEmpty (store : Store) : Bool := store.entries.isEmpty

/-! ## Setting a variable -/

/-- Replaces the entry of a name, or puts a new one in its place of the order. -/
def place (name : String) (value : Int64) : List (String × Int64) → List (String × Int64)
  | [] => [(name, value)]
  | entry :: rest =>
      if entry.1 = name then (name, value) :: rest
      else if name < entry.1 then (name, value) :: entry :: rest
      else entry :: place name value rest

theorem mem_place {name : String} {value : Int64} {entries : List (String × Int64)}
    {entry : String × Int64} (member : entry ∈ place name value entries) :
    entry = (name, value) ∨ entry ∈ entries := by
  induction entries with
  | nil => simpa [place] using member
  | cons head rest induction =>
      simp only [place] at member
      split at member
      · rcases List.mem_cons.mp member with equal | member
        · exact .inl equal
        · exact .inr (List.mem_cons_of_mem _ member)
      · split at member
        · exact List.mem_cons.mp member
        · rcases List.mem_cons.mp member with equal | member
          · exact .inr (equal ▸ List.mem_cons_self)
          · exact (induction member).imp_right (List.mem_cons_of_mem _)

/-- Of two different names one comes before the other. -/
theorem name_lt_of_not_lt {first second : String} (different : first ≠ second)
    (notAfter : ¬ second < first) : first < second :=
  Decidable.byContradiction fun notBefore =>
    different (String.le_antisymm (String.not_lt.mp notAfter) (String.not_lt.mp notBefore))

theorem ascending_place (name : String) (value : Int64) {entries : List (String × Int64)}
    (ascending : entries.Pairwise fun first second => first.1 < second.1) :
    (place name value entries).Pairwise fun first second => first.1 < second.1 := by
  induction entries with
  | nil => simp [place]
  | cons head rest induction =>
      have ⟨headFirst, restAscending⟩ := List.pairwise_cons.mp ascending
      simp only [place]
      split
      · next equal =>
          exact List.pairwise_cons.mpr
            ⟨fun entry member => equal ▸ headFirst entry member, restAscending⟩
      · next different =>
          split
          · next nameFirst =>
              refine List.pairwise_cons.mpr ⟨fun entry member => ?_, ascending⟩
              rcases List.mem_cons.mp member with rfl | member
              · exact nameFirst
              · exact String.lt_trans nameFirst (headFirst entry member)
          · next notBefore =>
              refine List.pairwise_cons.mpr ⟨fun entry member => ?_, induction restAscending⟩
              rcases mem_place member with rfl | member
              · exact name_lt_of_not_lt different notBefore
              · exact headFirst entry member

def set (store : Store) (name : String) (value : Int64) : Store :=
  ⟨place name value store.entries, ascending_place name value store.ascending⟩

theorem lookup_place (name other : String) (value : Int64) (entries : List (String × Int64)) :
    lookup other (place name value entries) =
      if other = name then some value else lookup other entries := by
  induction entries with
  | nil => simp [place, lookup, eq_comm]
  | cons head rest induction =>
      simp only [place]
      split
      · next same =>
          subst same
          by_cases equal : other = head.1
          · simp [lookup, equal]
          · simp [lookup, equal, Ne.symm equal]
      · next different =>
          split
          · by_cases equal : other = name
            · simp [lookup, equal]
            · simp [lookup, equal, Ne.symm equal]
          · by_cases equal : other = name
            · subst equal
              simp [lookup, induction, different]
            · simp [lookup, induction, equal]

/-- The last value that was set is the one that is found. -/
theorem get?_set (store : Store) (name other : String) (value : Int64) :
    (store.set name value).get? other =
      if other = name then some value else store.get? other :=
  lookup_place name other value store.entries

theorem get?_empty (name : String) : empty.get? name = none := rfl

/-- The value that is found where the entry of a name has its place. -/
def replaced (name : String) : List (String × Int64) → Option Int64
  | [] => none
  | entry :: rest =>
      if entry.1 = name then some entry.2
      else if name < entry.1 then none
      else replaced name rest

/-- The value that a variable had, and the store where it has another. -/
def exchange (store : Store) (name : String) (value : Int64) : Option Int64 × Store :=
  (replaced name store.entries, store.set name value)

/-! ## Listing -/

def entryText (entry : String × Int64) : String :=
  entry.1 ++ " = " ++ Integer.text entry.2 ++ "\n"

/-- One `name = value` line per variable. -/
def text (store : Store) : String :=
  String.join (store.entries.map entryText)

/-- The entries whose value an earlier store does not have. -/
def changesSince (store before : Store) : List (String × Int64) :=
  store.entries.filter fun entry => before.get? entry.1 != some entry.2

end Store

end Abacus
