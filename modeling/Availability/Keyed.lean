/-!
# Entries in the order of their keys

Lists of entries with keys in ascending order, each key once. Keys are compared by code points.
-/
namespace Availability.Keyed

variable {α : Type}

/-- Puts an entry at its place, over an entry with the same key. -/
def insert (key : String) (value : α) : List (String × α) → List (String × α)
  | [] => [(key, value)]
  | (k, v) :: rest =>
    if key < k then (key, value) :: (k, v) :: rest
    else if key = k then (key, value) :: rest
    else (k, v) :: insert key value rest

def get? (key : String) (entries : List (String × α)) : Option α :=
  (entries.find? (·.1 == key)).map (·.2)

def contains (key : String) (entries : List (String × α)) : Bool :=
  (get? key entries).isSome

/-- Puts an entry at its place unless its key is there. -/
def insertNew (key : String) (value : α) (entries : List (String × α)) : List (String × α) :=
  if contains key entries then entries else insert key value entries

/-- The entries in order; of two with one key the later stays. -/
def ofList (entries : List (String × α)) : List (String × α) :=
  entries.foldl (fun map entry => insert entry.1 entry.2 map) []

/-- Names in order, each once. -/
def set (names : List String) : List String :=
  (ofList (names.map fun name => (name, ()))).map (·.1)

@[simp] theorem get?_nil (key : String) : get? key ([] : List (String × α)) = none := rfl

theorem get?_cons (key : String) (entry : String × α) (entries : List (String × α)) :
    get? key (entry :: entries) = if key = entry.1 then some entry.2 else get? key entries := by
  by_cases h : entry.1 = key
  · simp [get?, h]
  · simp [get?, h, Ne.symm h]

theorem get?_append (key : String) (entries more : List (String × α)) :
    get? key (entries ++ more) = (get? key entries).or (get? key more) := by
  simp [get?, List.find?_append, Option.map_or]

@[simp] theorem get?_insert_self (key : String) (value : α) (entries : List (String × α)) :
    get? key (insert key value entries) = some value := by
  induction entries with
  | nil => simp [insert, get?]
  | cons entry rest ih =>
    obtain ⟨k, v⟩ := entry
    simp only [insert]
    split
    · simp [get?]
    · split
      · simp [get?]
      · rename_i h
        have hk : (k == key) = false := by simp [Ne.symm h]
        simpa [get?, List.find?, hk] using ih

theorem get?_insert_of_ne {key other : String} (h : other ≠ key) (value : α)
    (entries : List (String × α)) :
    get? other (insert key value entries) = get? other entries := by
  have hkey : (key == other) = false := by simp [Ne.symm h]
  induction entries with
  | nil => simp [insert, get?, hkey]
  | cons entry rest ih =>
    obtain ⟨k, v⟩ := entry
    simp only [insert]
    split
    · simp [get?, List.find?, hkey]
    · split
      · rename_i heq
        simp [get?, List.find?, ← heq, hkey]
      · cases hk : k == other with
        | true => simp [get?, List.find?, hk]
        | false => simpa [get?, List.find?, hk] using ih

theorem get?_insert (other key : String) (value : α) (entries : List (String × α)) :
    get? other (insert key value entries) =
      if other = key then some value else get? other entries := by
  split
  · rename_i heq
    rw [heq, get?_insert_self]
  · rename_i hne
    exact get?_insert_of_ne hne value entries

theorem get?_insertNew (other key : String) (value : α) (entries : List (String × α)) :
    get? other (insertNew key value entries) =
      (get? other entries).or (if other = key then some value else none) := by
  unfold insertNew contains
  cases hkey : get? key entries with
  | some known =>
    by_cases hother : other = key
    · simp [hother, hkey]
    · simp [hother]
  | none =>
    by_cases hother : other = key
    · simp [hother, hkey]
    · simp [hother, get?_insert_of_ne hother]

/-- Of several entries with one key the first stays, and what was there stays before all of them. -/
theorem get?_foldl_insertNew {β : Type} (key : β → String) (value : β → α) (more : List β)
    (entries : List (String × α)) (name : String) :
    get? name (more.foldl (fun map x => insertNew (key x) (value x) map) entries) =
      (get? name entries).or ((more.find? (key · == name)).map value) := by
  induction more generalizing entries with
  | nil => simp
  | cons x more ih =>
    rw [List.foldl_cons, ih, get?_insertNew, Option.or_assoc]
    by_cases hkey : key x = name
    · simp [hkey]
    · simp [hkey, Ne.symm hkey]

end Availability.Keyed
