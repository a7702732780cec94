import Availability.Json.Table
import Availability.Proofs.JsonText
import Availability.Proofs.KeyOrder
import Availability.Proofs.VersionText

/-!
# Tables survive their text

Decoding undoes encoding, for versions, for the entries of a table and for whole tables. Encoded
values have no faults, so that this carries over to their texts. What a text does not keep is the
order of entries, and a table that is in order is restored as it was.
-/
namespace Availability

namespace Json

@[simp] theorem plain_text (s : String) : (Value.text s).Plain := by
  simp [Value.text, Value.Plain]

@[simp] theorem plain_bool (b : Bool) : (Value.bool b).Plain := trivial

@[simp] theorem plain_list_iff {items : List Value} :
    (Value.list items).Plain ↔ ∀ item ∈ items, item.Plain := by
  simp only [Value.list, Value.Plain, true_and]
  induction items with
  | nil => simp [Value.PlainItems]
  | cons item items ih => simp [Value.PlainItems, ih]

theorem plain_record_iff {members : List (String × Value)} :
    (Value.record members).Plain ↔ ∀ member ∈ members, member.2.Plain := by
  simp only [Value.record, Value.Plain, true_and]
  induction members with
  | nil => simp [Value.PlainMembers]
  | cons member members ih => simp [Value.PlainMembers, ih]

@[simp] theorem plain_record_nil : (Value.record []).Plain :=
  plain_record_iff.mpr (by simp)

@[simp] theorem plain_record_cons {member : String × Value} {members : List (String × Value)} :
    (Value.record (member :: members)).Plain ↔ member.2.Plain ∧ (Value.record members).Plain := by
  simp only [plain_record_iff, List.forall_mem_cons]

@[simp] theorem plain_record_append {members more : List (String × Value)} :
    (Value.record (members ++ more)).Plain ↔
      (Value.record members).Plain ∧ (Value.record more).Plain := by
  simp only [plain_record_iff, List.forall_mem_append]

variable {α : Type} {decode : Decoder α} {encode : α → Value}

@[simp] theorem plain_record_map {encode : α → String × Value} {entries : List α} :
    (Value.record (entries.map encode)).Plain ↔ ∀ a ∈ entries, (encode a).2.Plain := by
  rw [plain_record_iff, List.forall_mem_map]

/-! ## Decoders of what is written -/

@[simp] theorem decodeString_text (s : String) : decodeString (.text s) = .ok s := rfl

@[simp] theorem decodeBool_bool (b : Bool) : decodeBool (.bool b) = .ok b := rfl

@[simp] theorem decodeOption_text (s : String) :
    decodeOption decode (.text s) = (decode (.text s)).map some := rfl

@[simp] theorem required_some (a : α) : required (some a) = .ok a := rfl

@[simp] theorem required_none : required (none : Option α) = .error .mismatch := rfl

section Record

variable {σ : Type} (name : String) (get : σ → Option α) (put : σ → α → σ)

@[simp] theorem RecordField.name_of : (RecordField.of name get put decode).name = name := rfl

@[simp] theorem RecordField.isSet_of (s : σ) :
    (RecordField.of name get put decode).isSet s = (get s).isSome := rfl

@[simp] theorem RecordField.set_of (s : σ) (v : Value) :
    (RecordField.of name get put decode).set s v = (decode v).map (put s) := by
  simp only [RecordField.of]
  cases decode v <;> rfl

variable (step : σ → String → Value → Except Fault σ) (s : σ)

@[simp] theorem foldMembers_nil : foldMembers step [] s = .ok s := rfl

@[simp] theorem foldMembers_cons (v : Value) (rest : List (Except Fault String × Value)) :
    foldMembers step ((.ok name, v) :: rest) s = step s name v >>= foldMembers step rest := rfl

end Record

/-- The entries that are read are added to those before them. -/
theorem foldMembers_encode (hdecode : ∀ a, decode (encode a) = .ok a)
    (entries before : List (String × α)) :
    foldMembers (fun entries name value => do return entries ++ [(name, ← decode value)])
      (entries.map fun entry => (.ok entry.1, encode entry.2)) before =
        .ok (before ++ entries) := by
  induction entries generalizing before with
  | nil => simp
  | cons entry entries ih =>
    simp only [List.map_cons, foldMembers_cons, hdecode]
    exact (ih (before ++ [entry])).trans (by simp)

theorem decodeEntries_record (hdecode : ∀ a, decode (encode a) = .ok a)
    (entries : List (String × α)) :
    decodeEntries decode (.record (entries.map fun entry => (entry.1, encode entry.2))) =
      .ok entries := by
  have hfold := foldMembers_encode hdecode entries []
  simp only [List.nil_append] at hfold
  simp only [decodeEntries, Value.record, List.map_map, Function.comp_def, hfold]
  rfl

end Json

open Json

namespace Version

@[simp] theorem decode_toJson (v : Version) : decode v.toJson = .ok v := by
  simp [decode, toJson, ofString?_toString]

@[simp] theorem decodeOption_toJson (v : Version) :
    decodeOption decode v.toJson = .ok (some v) := by
  have hdecode := decode_toJson v
  rw [toJson] at hdecode ⊢
  simp [hdecode]

end Version

namespace SymbolEntry

@[simp] theorem plain_toJson (e : SymbolEntry) : e.toJson.Plain := by
  rcases e with ⟨since, _ | deprecated⟩ <;> simp [toJson, Version.toJson]

theorem decode_toJson (e : SymbolEntry) : decode e.toJson = .ok e := by
  rcases e with ⟨since, _ | deprecated⟩ <;>
    simp [decode, toJson, decodeRecord, Value.record, fields]

end SymbolEntry

namespace ClassEntry

@[simp] theorem plain_toJson (e : ClassEntry) : e.toJson.Plain := by
  rcases e with ⟨_ | parent⟩ <;> simp [toJson]

theorem decode_toJson (e : ClassEntry) : decode e.toJson = .ok e := by
  rcases e with ⟨_ | parent⟩ <;> simp [decode, toJson, decodeRecord, Value.record, fields]

end ClassEntry

namespace SymbolTable

theorem plain_toJson (table : SymbolTable) : table.toJson.Plain := by
  by_cases hclasses : table.classes = [] <;> simp [toJson, hclasses]

/-- Reading puts the entries in order. -/
theorem decode_toJson (table : SymbolTable) :
    decode table.toJson =
      .ok { symbols := Keyed.ofList table.symbols, classes := Keyed.ofList table.classes } := by
  have hsymbols := decodeEntries_record SymbolEntry.decode_toJson table.symbols
  have hclasses := decodeEntries_record ClassEntry.decode_toJson table.classes
  -- The records of symbols and classes are known by what they decode to only.
  unfold toJson
  generalize Value.record (table.symbols.map _) = symbols at hsymbols ⊢
  generalize Value.record (table.classes.map _) = classes at hclasses ⊢
  split
  · rename_i hempty
    simp [decode, decodeRecord, Value.record, fields, hsymbols, List.isEmpty_iff.mp hempty]
  · simp [decode, decodeRecord, Value.record, fields, hsymbols, hclasses]

theorem ofText_toText_append {table : SymbolTable} (h : table.Ordered) (breaks : Nat) :
    ofText (table.toText ++ String.ofList (List.replicate breaks '\n')) = .ok table := by
  have hread := read_render_append table.plain_toJson breaks
  have hdecode : decode table.toJson = .ok table := by
    rw [decode_toJson, Except.ok.injEq]
    exact ext (Keyed.ofList_of_ascending h.symbols) (Keyed.ofList_of_ascending h.classes)
  simp [ofText, toText, decodeText, hread, hdecode]

/-- A table is restored from its text, with the line break that a file has after it or without: it
has the same symbols and classes, and finds the same under every name. -/
theorem restored_from_text {table : SymbolTable} (h : table.Ordered) {ending : String}
    (hending : ending = "" ∨ ending = "\n") :
    ∃ restored, ofText (table.toText ++ ending) = .ok restored ∧
      restored.symbols = table.symbols ∧ restored.classes = table.classes ∧
        ∀ name, restored.find? name = table.find? name := by
  refine ⟨table, ?_, rfl, rfl, fun _ => rfl⟩
  rcases hending with rfl | rfl
  · exact ofText_toText_append h 0
  · exact ofText_toText_append h 1

/-- A table with names that need escapes, names beyond ASCII and the greatest version. -/
def awkward : SymbolTable where
  symbols := [
    ("", ⟨⟨0, 0, 0⟩, none⟩),
    ("\u0001\n\"\\", ⟨⟨4294967295, 4294967295, 4294967295⟩, none⟩),
    ("Näme::läuft", ⟨⟨2, 7, 0⟩, some ⟨5, 4, 1⟩⟩),
    ("näme::LÄUFT", ⟨⟨3, 0, 0⟩, none⟩),
    ("日本\t😀", ⟨⟨6, 1, 0⟩, some ⟨6, 1, 0⟩⟩)]
  classes := [("Näme", ⟨some "\"Base\"\r\n"⟩), ("日本", ⟨none⟩)]

theorem restored_from_text_awkward :
    awkward.Ordered ∧ ∃ restored, ofText (awkward.toText ++ "\n") = .ok restored ∧
      restored.symbols = awkward.symbols ∧ restored.classes = awkward.classes ∧
        ∀ name, restored.find? name = awkward.find? name := by
  have hordered : awkward.Ordered := ⟨by decide +kernel, by decide +kernel⟩
  exact ⟨hordered, restored_from_text hordered (.inr rfl)⟩

end SymbolTable

end Availability
