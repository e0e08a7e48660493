/-! # Tables

A table maps keys to values and remembers the order in which keys came in. Its operations are
described by what `get?` finds afterwards.
-/

namespace DoubleEntry

structure Table (κ ν : Type) where
  entries : List (κ × ν)
  nodup : (entries.map Prod.fst).Nodup
deriving DecidableEq, Repr

namespace Table

variable {κ ν : Type}

def empty : Table κ ν := ⟨[], .nil⟩

instance : Inhabited (Table κ ν) := ⟨empty⟩

def keys (table : Table κ ν) : List κ := table.entries.map Prod.fst

def size (table : Table κ ν) : Nat := table.entries.length

def isEmpty (table : Table κ ν) : Bool := table.entries.isEmpty

variable [DecidableEq κ]

def get? (table : Table κ ν) (key : κ) : Option ν :=
  (table.entries.find? fun entry => entry.1 = key).map Prod.snd

def contains (table : Table κ ν) (key : κ) : Bool := (table.get? key).isSome

/-- Changes the value of a key in place; an absent key stays absent. -/
def modify (table : Table κ ν) (key : κ) (change : ν → ν) : Table κ ν where
  entries := table.entries.map fun entry =>
    if entry.1 = key then (entry.1, change entry.2) else entry
  nodup := by
    have same : (Prod.fst ∘ fun entry : κ × ν =>
        if entry.1 = key then (entry.1, change entry.2) else entry) = Prod.fst := by
      funext entry
      simp only [Function.comp]
      split <;> rfl
    rw [List.map_map, same]
    exact table.nodup

theorem contains_iff (table : Table κ ν) (key : κ) :
    table.contains key = true ↔ key ∈ table.keys := by
  simp [contains, get?, keys]

/-- Sets the value of a key, which comes last if it is new. -/
def insert (table : Table κ ν) (key : κ) (value : ν) : Table κ ν :=
  if present : table.contains key then table.modify key fun _ => value
  else
    { entries := table.entries ++ [(key, value)]
      nodup := by
        rw [contains_iff] at present
        rw [List.map_append, List.nodup_append]
        refine ⟨table.nodup, List.nodup_cons.mpr ⟨by simp, .nil⟩, ?_⟩
        intro other inside new isNew same
        simp only [List.map_cons, List.map_nil, List.mem_singleton] at isNew
        exact present (isNew ▸ same ▸ inside) }

def erase (table : Table κ ν) (key : κ) : Table κ ν where
  entries := table.entries.filter fun entry => entry.1 ≠ key
  nodup := table.nodup.sublist (List.filter_sublist.map _)

@[simp] theorem get?_empty (key : κ) : (empty : Table κ ν).get? key = none := rfl

theorem get?_modify (table : Table κ ν) (key : κ) (change : ν → ν) (other : κ) :
    (table.modify key change).get? other =
      if other = key then (table.get? key).map change else table.get? other := by
  simp only [get?, modify, List.find?_map, Option.map_map]
  have same : (fun entry : κ × ν => decide (entry.1 = other)) ∘
      (fun entry => if entry.1 = key then (entry.1, change entry.2) else entry) =
      fun entry => decide (entry.1 = other) := by
    funext entry
    simp only [Function.comp]
    split <;> rfl
  rw [same]
  by_cases h : other = key
  · subst h
    simp only [if_true]
    cases found : table.entries.find? fun entry => decide (entry.1 = other) with
    | none => rfl
    | some entry =>
      have := List.find?_some found
      simp_all
  · simp only [h, if_false]
    cases found : table.entries.find? fun entry => decide (entry.1 = other) with
    | none => rfl
    | some entry =>
      have := List.find?_some found
      simp_all

theorem get?_insert (table : Table κ ν) (key : κ) (value : ν) (other : κ) :
    (table.insert key value).get? other = if other = key then some value else table.get? other := by
  unfold insert
  split
  · rename_i present
    rw [get?_modify]
    split
    · obtain ⟨old, found⟩ := Option.isSome_iff_exists.mp present
      simp [found]
    · rfl
  · rename_i absent
    have none : table.get? key = none := by simpa [contains] using absent
    simp only [get?, List.find?_append] at none ⊢
    by_cases h : other = key
    · subst h
      simp only [Option.map_eq_none_iff] at none
      simp [none]
    · have h' : ¬ key = other := fun e => h e.symm
      simp [h, h']

theorem get?_erase (table : Table κ ν) (key other : κ) :
    (table.erase key).get? other = if other = key then none else table.get? other := by
  simp only [get?, erase, List.find?_filter]
  by_cases h : other = key
  · subst h
    simp
  · simp only [h, if_false]
    congr 2
    funext entry
    by_cases e : entry.1 = other
    · simp [e, h]
    · simp [e]

end Table

end DoubleEntry
