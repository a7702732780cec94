import Availability.Json.Printer
import Availability.Json.Reader
import Availability.Proofs.Steps
import Mathlib.Tactic.Common

/-!
# Reading what was written

A value without faults is read back from its text. A character of a string takes one step of the
reader, however it is escaped, and a value takes at most as many steps as its text has characters.
-/
namespace Availability.Json

namespace Reader

theorem hexValue?_hexDigit : ∀ n < 16, hexValue? (hexDigit n) = some n := by
  decide

/-- The code of a control character is read back. -/
theorem hex4_control {n : Nat} (h : n < 0x20) (rest : List Char) :
    hex4 ('0' :: '0' :: hexDigit (n / 16) :: hexDigit (n % 16) :: rest) = .ok (n, rest) := by
  have hzero : hexValue? '0' = some 0 := hexValue?_hexDigit 0 (by decide)
  have hhigh := hexValue?_hexDigit (n / 16) (by omega)
  have hlow := hexValue?_hexDigit (n % 16) (by omega)
  have hsum : ((0 * 16 + 0) * 16 + n / 16) * 16 + n % 16 = n := by omega
  simp only [hex4, hzero, hhigh, hlow, hsum]

/-- Each character of a string is read in one step. -/
theorem stringRest_escapeChar (budget : Nat) (c : Char) (rest : List Char) :
    stringRest (budget + 1) (escapeChar c ++ rest) = (stringRest budget rest).cons c := by
  unfold escapeChar
  split
  case h_8 hquote hbackslash _ _ _ _ _ =>
    split
    · rename_i hcontrol
      have hhigh : isHighSurrogate c.toNat = false := by
        simp only [isHighSurrogate, Bool.and_eq_false_iff, decide_eq_false_iff_not]
        omega
      have hlow : isLowSurrogate c.toNat = false := by
        simp only [isLowSurrogate, Bool.and_eq_false_iff, decide_eq_false_iff_not]
        omega
      simp [stringRest, hex4_control hcontrol, hhigh, hlow]
    · rename_i hprinted
      have hquote : c ≠ '"' := hquote
      have hbackslash : c ≠ '\\' := hbackslash
      simp [stringRest, hquote, hbackslash, hprinted]
  all_goals simp [stringRest, simpleEscape?]

theorem length_escapeChar_pos (c : Char) : 0 < (escapeChar c).length := by
  unfold escapeChar
  split
  case h_8 => split <;> simp
  all_goals simp

theorem stringRest_flatMap (s rest : List Char) {budget : Nat}
    (h : (s.flatMap escapeChar).length < budget) :
    stringRest budget (s.flatMap escapeChar ++ '"' :: rest) = ⟨.ok s, .ok rest⟩ := by
  induction s generalizing budget with
  | nil =>
    cases budget with
    | zero => simp at h
    | succ budget => simp [stringRest]
  | cons c s ih =>
    cases budget with
    | zero => simp at h
    | succ budget =>
      have hpos := length_escapeChar_pos c
      rw [List.flatMap_cons, List.length_append] at h
      rw [List.flatMap_cons, List.append_assoc, stringRest_escapeChar, ih (by omega)]
      rfl

/-- A string between quotes is read back. -/
theorem string_flatMap (s rest : List Char) :
    string (s.flatMap escapeChar ++ '"' :: rest) = ⟨.ok s, .ok rest⟩ := by
  refine stringRest_flatMap s rest ?_
  simp only [List.length_append, List.length_cons]
  omega

theorem skip_newline (level : Nat) (cs : List Char) : skip (newline level ++ cs) = skip cs := by
  refine List.dropWhile_append_of_pos fun c hc => ?_
  simp only [newline, List.mem_cons, List.mem_replicate] at hc
  rcases hc with rfl | ⟨-, rfl⟩ <;> rfl

theorem skip_cons {c : Char} (h : isBlank c = false) (cs : List Char) :
    skip (c :: cs) = c :: cs := by
  simp [skip, h]

/-- Blanks before a value do not count. -/
theorem value_skip (budget : Nat) {cs cs' : List Char} (h : skip cs = skip cs') :
    value budget cs = value budget cs' := by
  cases budget with
  | zero => rfl
  | succ budget => simp only [value, h]

section Steps

variable {budget level : Nat} {cs rest after : List Char} {v : Value} {fault : Option Fault}

/-- An item of an array is read before those that follow it. -/
theorem items_cons {c : Char} {more : List Value} (hblank : isBlank c = false) (hc : c ≠ ']')
    (hvalue : value budget (c :: cs) = (v, rest)) (hv : stops v = false)
    (hmore : items budget false rest = (more, fault, after)) :
    items (budget + 1) true (newline level ++ c :: cs) = (v :: more, fault, after) ∧
      items (budget + 1) false (',' :: (newline level ++ c :: cs)) = (v :: more, fault, after) := by
  have hcomma : isBlank ',' = false := rfl
  constructor
  · simp [items, skip_newline, skip_cons hblank, hvalue, hv, hmore]
  · simp [items, skip_newline, skip_cons hblank, skip_cons hcomma, hc, hvalue, hv, hmore]

/-- A member of an object is read before those that follow it. -/
theorem members_cons {key : String} {more : List (Except Fault String × Value)}
    (hvalue : value budget cs = (v, rest)) (hv : stops v = false)
    (hmore : members budget false rest = (more, fault, after)) :
    members (budget + 1) true (newline level ++ (quoted key ++ (':' :: ' ' :: cs))) =
        ((.ok key, v) :: more, fault, after) ∧
      members (budget + 1) false (',' :: (newline level ++ (quoted key ++ (':' :: ' ' :: cs)))) =
        ((.ok key, v) :: more, fault, after) := by
  have hcomma : isBlank ',' = false := rfl
  have hquote : isBlank '"' = false := rfl
  have hcolon : isBlank ':' = false := rfl
  have hspace : value budget (' ' :: cs) = (v, rest) := by
    rw [← hvalue]
    exact value_skip budget rfl
  have hkey : quoted key ++ (':' :: ' ' :: cs) =
      '"' :: (key.toList.flatMap escapeChar ++ '"' :: (':' :: ' ' :: cs)) := by
    simp [quoted]
  rw [hkey]
  constructor
  · simp [members, skip_newline, skip_cons hquote, string_flatMap, skip_cons hcolon, hspace, hv,
      hmore]
  · simp [members, skip_newline, skip_cons hquote, skip_cons hcomma, string_flatMap,
      skip_cons hcolon, hspace, hv, hmore]

end Steps

end Reader

/-- The digits of a natural number: no zero stands before others. -/
structure IsNumeral (ds : List Char) : Prop where
  digits : ∀ c ∈ ds, c.isDigit = true
  ne_nil : ds ≠ []
  zero : ds.head? = some '0' → ds = ['0']

theorem IsNumeral.exists_digit {ds : List Char} (h : IsNumeral ds) :
    ∃ d tail, ds = d :: tail ∧ d.isDigit = true := by
  obtain ⟨d, tail, rfl⟩ := List.exists_cons_of_ne_nil h.ne_nil
  exact ⟨d, tail, rfl, h.digits d List.mem_cons_self⟩

mutual

/-- Values without faults whose numbers are natural. -/
def Value.Plain : Value → Prop
  | .null => True
  | .bool _ => True
  | .number text => IsNumeral text.toList
  | .string text => text.isSome = true
  | .array items fault => fault = none ∧ Value.PlainItems items
  | .object members fault => fault = none ∧ Value.PlainMembers members
  | .broken _ _ => False

def Value.PlainItems : List Value → Prop
  | [] => True
  | item :: rest => item.Plain ∧ Value.PlainItems rest

def Value.PlainMembers : List (Except Fault String × Value) → Prop
  | [] => True
  | (key, value) :: rest => (∃ name, key = .ok name) ∧ value.Plain ∧ Value.PlainMembers rest

end

namespace Reader

/-- What may follow a value in a text. -/
inductive Ends : List Char → Prop
  | nil : Ends []
  | comma (rest : List Char) : Ends (',' :: rest)
  | newline (rest : List Char) : Ends ('\n' :: rest)

theorem digits_append {ds rest : List Char} (hds : ∀ c ∈ ds, c.isDigit = true) (hne : ds ≠ [])
    (hrest : Ends rest) : digits (ds ++ rest) = .ok (ds, rest) := by
  have htake : (ds ++ rest).takeWhile Char.isDigit = ds := by
    rw [List.takeWhile_append_of_pos hds]
    cases hrest <;> simp
  have hdrop : (ds ++ rest).dropWhile Char.isDigit = rest := by
    rw [List.dropWhile_append_of_pos hds]
    cases hrest <;> simp
  obtain ⟨d, more, rfl⟩ := List.exists_cons_of_ne_nil hne
  simp only [digits, htake, hdrop]

theorem whole_append {ds rest : List Char} (h : IsNumeral ds) (hrest : Ends rest) :
    whole (ds ++ rest) = .ok (ds, rest) := by
  by_cases hfirst : ds.head? = some '0'
  · obtain rfl := h.zero hfirst
    cases hrest <;> simp [whole]
  · rw [← digits_append h.digits h.ne_nil hrest]
    obtain ⟨d, ds, rfl, -⟩ := h.exists_digit
    have hd : d ≠ '0' := by simpa using hfirst
    simp [whole, hd]

theorem number_append {ds rest : List Char} (h : IsNumeral ds) (hrest : Ends rest) :
    number (ds ++ rest) = .ok (ds, rest) := by
  have hsign : ∀ tail, ds ++ rest ≠ '-' :: tail := by
    obtain ⟨d, ds, rfl, hd⟩ := h.exists_digit
    rintro tail heq
    obtain rfl : d = '-' := (List.cons.inj heq).1
    exact absurd hd (by decide)
  have hfraction : fraction rest = .ok ([], rest) := by cases hrest <;> rfl
  have hexponent : exponent rest = .ok ([], rest) := by cases hrest <;> rfl
  simp [number, whole_append h hrest, hfraction, hexponent]

theorem stops_of_plain {v : Value} (h : v.Plain) : stops v = false := by
  cases v with
  | array items fault => simp [stops, h.1]
  | object members fault => simp [stops, h.1]
  | broken read passed => exact h.elim
  | _ => rfl

theorem not_blank_of_isDigit {c : Char} (h : c.isDigit = true) : isBlank c = false := by
  by_contra hblank
  simp only [isBlank, Bool.not_eq_false, Bool.or_eq_true, beq_iff_eq] at hblank
  rcases hblank with ((rfl | rfl) | rfl) | rfl <;> exact absurd h (by decide)

/-- A value starts with a character that is neither blank nor the end of an array. -/
theorem pretty_head {v : Value} (h : v.Plain) (level : Nat) :
    ∃ c cs, pretty level v = c :: cs ∧ isBlank c = false ∧ c ≠ ']' := by
  cases v with
  | null => exact ⟨'n', _, rfl, rfl, by decide⟩
  | bool b =>
    cases b with
    | true => exact ⟨'t', _, rfl, rfl, by decide⟩
    | false => exact ⟨'f', _, rfl, rfl, by decide⟩
  | number text =>
    obtain ⟨d, ds, hds, hd⟩ := IsNumeral.exists_digit h
    refine ⟨d, ds, hds, not_blank_of_isDigit hd, ?_⟩
    rintro rfl
    exact absurd hd (by decide)
  | string text => exact ⟨'"', _, rfl, rfl, by decide⟩
  | array items fault =>
    cases items with
    | nil => exact ⟨'[', _, by rw [pretty], rfl, by decide⟩
    | cons item more => exact ⟨'[', _, by rw [pretty], rfl, by decide⟩
  | object members fault =>
    cases members with
    | nil => exact ⟨'{', _, by rw [pretty], rfl, by decide⟩
    | cons member more => exact ⟨'{', _, by rw [pretty], rfl, by decide⟩
  | broken read passed => exact h.elim

/-- The value is read back from its text at any level, whatever may follow. -/
def Restored (v : Value) : Prop :=
  ∀ (level budget : Nat) (rest : List Char), (pretty level v).length ≤ budget → Ends rest →
    value budget (pretty level v ++ rest) = (v, rest)

def RestoredItems (items : List Value) : Prop :=
  ∀ (level close budget : Nat) (rest : List Char), (prettyItems level items).length < budget →
    Reader.items budget false (prettyItems level items ++ (newline close ++ ']' :: rest)) =
      (items, none, rest)

def RestoredMembers (members : List (Except Fault String × Value)) : Prop :=
  ∀ (level close budget : Nat) (rest : List Char), (prettyMembers level members).length < budget →
    Reader.members budget false (prettyMembers level members ++ (newline close ++ '}' :: rest)) =
      (members, none, rest)

theorem restored_null : Restored .null := by
  intro level budget rest hbudget hrest
  obtain ⟨budget, rfl⟩ : ∃ n, budget = n + 1 := ⟨budget - 1, by simp [pretty] at hbudget; omega⟩
  simp [value, pretty, skip, isBlank, word]

theorem restored_bool (b : Bool) : Restored (.bool b) := by
  intro level budget rest hbudget hrest
  obtain ⟨budget, rfl⟩ : ∃ n, budget = n + 1 :=
    ⟨budget - 1, by cases b <;> simp [pretty] at hbudget <;> omega⟩
  cases b <;> simp [value, pretty, skip, isBlank, word]

theorem restored_number {text : String} (h : IsNumeral text.toList) : Restored (.number text) := by
  intro level budget rest hbudget hrest
  have hnumber := number_append h hrest
  obtain ⟨d, ds, hds, hd⟩ := h.exists_digit
  have htext : String.ofList (d :: ds) = text := by rw [← hds, String.ofList_toList]
  have hne (c : Char) (hc : c.isDigit = false) : d ≠ c := by
    rintro rfl
    exact absurd hd (by simp [hc])
  simp only [pretty, hds, List.cons_append] at hbudget hnumber ⊢
  obtain ⟨budget, rfl⟩ : ∃ n, budget = n + 1 := ⟨budget - 1, by simp at hbudget; omega⟩
  simp [value, skip_cons (not_blank_of_isDigit hd), hne 'n' rfl, hne 't' rfl, hne 'f' rfl,
    hne '"' rfl, hne '[' rfl, hne '{' rfl, hd, hnumber, htext]

theorem restored_string (s : String) : Restored (.string (some s)) := by
  intro level budget rest hbudget hrest
  obtain ⟨budget, rfl⟩ : ∃ n, budget = n + 1 :=
    ⟨budget - 1, by simp [pretty, quoted] at hbudget; omega⟩
  simp [value, pretty, quoted, skip, isBlank, string_flatMap, Except.toOption]

theorem ends_prettyItems (level close : Nat) (items : List Value) (rest : List Char) :
    Ends (prettyItems level items ++ (newline close ++ rest)) := by
  cases items with
  | nil => exact .newline _
  | cons item more => exact .comma _

theorem ends_prettyMembers (level close : Nat) (members : List (Except Fault String × Value))
    (rest : List Char) : Ends (prettyMembers level members ++ (newline close ++ rest)) := by
  cases members with
  | nil => exact .newline _
  | cons member more => exact .comma _

section Steps

variable (level close : Nat) {budget : Nat} (rest : List Char) {v : Value}

theorem items_restored {more : List Value} (hplain : v.Plain) (hv : Restored v)
    (hmore : RestoredItems more) (hbudget : (pretty level v).length ≤ budget)
    (hbudget' : (prettyItems level more).length < budget) :
    let text := newline level ++ (pretty level v ++
      (prettyItems level more ++ (newline close ++ ']' :: rest)))
    items (budget + 1) true text = (v :: more, none, rest) ∧
      items (budget + 1) false (',' :: text) = (v :: more, none, rest) := by
  have hvalue := hv level budget _ hbudget (ends_prettyItems level close more (']' :: rest))
  obtain ⟨c, cs, hhead, hblank, hc⟩ := pretty_head hplain level
  rw [hhead] at hvalue ⊢
  exact items_cons hblank hc hvalue (stops_of_plain hplain) (hmore level close budget rest hbudget')

theorem members_restored {key : String} {more : List (Except Fault String × Value)}
    (hplain : v.Plain) (hv : Restored v) (hmore : RestoredMembers more)
    (hbudget : (pretty level v).length ≤ budget)
    (hbudget' : (prettyMembers level more).length < budget) :
    let text := newline level ++ (quoted key ++ (':' :: ' ' :: (pretty level v ++
      (prettyMembers level more ++ (newline close ++ '}' :: rest)))))
    members (budget + 1) true text = ((.ok key, v) :: more, none, rest) ∧
      members (budget + 1) false (',' :: text) = ((.ok key, v) :: more, none, rest) := by
  have hvalue := hv level budget _ hbudget (ends_prettyMembers level close more ('}' :: rest))
  exact members_cons hvalue (stops_of_plain hplain) (hmore level close budget rest hbudget')

end Steps

theorem restored_array_nil : Restored (.array [] none) := by
  intro level budget rest hbudget hrest
  simp only [pretty, List.length_cons, List.length_nil] at hbudget
  obtain ⟨budget, rfl⟩ : ∃ n, budget = n + 2 := ⟨budget - 2, by omega⟩
  simp [value, pretty, skip, isBlank, items]

theorem restored_array_cons {item : Value} {more : List Value} (hplain : item.Plain)
    (hitem : Restored item) (hmore : RestoredItems more) :
    Restored (.array (item :: more) none) := by
  intro level budget rest hbudget hrest
  simp only [pretty, List.length_cons, List.length_append, newline] at hbudget
  obtain ⟨budget, rfl⟩ : ∃ n, budget = n + 2 := ⟨budget - 2, by omega⟩
  have hitems := (@items_restored (level + 1) level budget rest item more hplain hitem hmore
    (by omega) (by omega)).1
  simp [value, pretty, skip, isBlank, hitems]

theorem restoredItems_nil : RestoredItems [] := by
  intro level close budget rest hbudget
  obtain ⟨budget, rfl⟩ : ∃ n, budget = n + 1 := ⟨budget - 1, by omega⟩
  have hclose : isBlank ']' = false := rfl
  simp [prettyItems, items, skip_newline, skip_cons hclose]

theorem restoredItems_cons {item : Value} {more : List Value} (hplain : item.Plain)
    (hitem : Restored item) (hmore : RestoredItems more) : RestoredItems (item :: more) := by
  intro level close budget rest hbudget
  simp only [prettyItems, List.length_cons, List.length_append, newline] at hbudget
  obtain ⟨budget, rfl⟩ : ∃ n, budget = n + 1 := ⟨budget - 1, by omega⟩
  have hitems := (@items_restored level close budget rest item more hplain hitem hmore
    (by omega) (by omega)).2
  simpa [prettyItems] using hitems

theorem restored_object_nil : Restored (.object [] none) := by
  intro level budget rest hbudget hrest
  simp only [pretty, List.length_cons, List.length_nil] at hbudget
  obtain ⟨budget, rfl⟩ : ∃ n, budget = n + 2 := ⟨budget - 2, by omega⟩
  simp [value, pretty, skip, isBlank, members]

theorem restored_object_cons {key : String} {v : Value}
    {more : List (Except Fault String × Value)} (hplain : v.Plain) (hv : Restored v)
    (hmore : RestoredMembers more) : Restored (.object ((.ok key, v) :: more) none) := by
  intro level budget rest hbudget hrest
  simp only [pretty, List.length_cons, List.length_append, newline] at hbudget
  obtain ⟨budget, rfl⟩ : ∃ n, budget = n + 2 := ⟨budget - 2, by omega⟩
  have hmembers := (@members_restored (level + 1) level budget rest v key more hplain hv hmore
    (by omega) (by omega)).1
  simp [value, pretty, skip, isBlank, Except.toOption, hmembers]

theorem restoredMembers_nil : RestoredMembers [] := by
  intro level close budget rest hbudget
  obtain ⟨budget, rfl⟩ : ∃ n, budget = n + 1 := ⟨budget - 1, by omega⟩
  have hclose : isBlank '}' = false := rfl
  simp [prettyMembers, members, skip_newline, skip_cons hclose]

theorem restoredMembers_cons {key : String} {v : Value}
    {more : List (Except Fault String × Value)} (hplain : v.Plain) (hv : Restored v)
    (hmore : RestoredMembers more) : RestoredMembers ((.ok key, v) :: more) := by
  intro level close budget rest hbudget
  simp only [prettyMembers, List.length_cons, List.length_append, newline] at hbudget
  obtain ⟨budget, rfl⟩ : ∃ n, budget = n + 1 := ⟨budget - 1, by omega⟩
  have hmembers := (@members_restored level close budget rest v key more hplain hv hmore
    (by omega) (by omega)).2
  simpa [prettyMembers, Except.toOption] using hmembers

mutual

theorem restored_of_plain : ∀ {v : Value}, v.Plain → Restored v
  | .null, _ => restored_null
  | .bool b, _ => restored_bool b
  | .number _, h => restored_number h
  | .string (some s), _ => restored_string s
  | .array [] _, ⟨rfl, _⟩ => restored_array_nil
  | .array (_ :: _) _, ⟨rfl, hitem, hmore⟩ =>
    restored_array_cons hitem (restored_of_plain hitem) (restoredItems_of_plain hmore)
  | .object [] _, ⟨rfl, _⟩ => restored_object_nil
  | .object ((_, _) :: _) _, ⟨rfl, ⟨_, rfl⟩, hv, hmore⟩ =>
    restored_object_cons hv (restored_of_plain hv) (restoredMembers_of_plain hmore)

theorem restoredItems_of_plain : ∀ {items : List Value},
    Value.PlainItems items → RestoredItems items
  | [], _ => restoredItems_nil
  | _ :: _, ⟨hitem, hmore⟩ =>
    restoredItems_cons hitem (restored_of_plain hitem) (restoredItems_of_plain hmore)

theorem restoredMembers_of_plain : ∀ {members : List (Except Fault String × Value)},
    Value.PlainMembers members → RestoredMembers members
  | [], _ => restoredMembers_nil
  | (_, _) :: _, ⟨⟨_, rfl⟩, hv, hmore⟩ =>
    restoredMembers_cons hv (restored_of_plain hv) (restoredMembers_of_plain hmore)

end

end Reader

/-- A text has the value that it was written from, and nothing else, even if line breaks follow. -/
theorem read_render_append {v : Value} (h : v.Plain) (breaks : Nat) :
    read (v.render ++ String.ofList (List.replicate breaks '\n')) = (v, false) := by
  have hends : Reader.Ends (List.replicate breaks '\n') := by
    cases breaks with
    | zero => exact .nil
    | succ breaks => exact .newline _
  have hskip : Reader.skip (List.replicate breaks '\n') = [] := by
    simp [Reader.skip, Reader.isBlank]
  have hvalue := Reader.restored_of_plain h 0
    (2 * (pretty 0 v ++ List.replicate breaks '\n').length + 2) (List.replicate breaks '\n')
    (by simp only [List.length_append]; omega) hends
  simp only [read, Value.render, String.toList_append, String.toList_ofList, hvalue, hskip]
  rfl

end Availability.Json
