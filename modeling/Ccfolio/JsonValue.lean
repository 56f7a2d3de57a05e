import Ccfolio.StdText

/-! Values of the JSON library as the sources use it: access and assignment by
key, conversion to a string, and the encoding check of `dump`. Parsing and the
text `dump` produces belong to the library; they are a parameter (`JsonLib`)
with what the sources rely on as laws. -/

namespace Ccfolio.JsonValue

open Utf8 StdText

inductive Json where
  | null
  | boolean (b : Bool)
  | integer (n : Int)
  | float (bits : UInt64)
  | string (s : Bytes)
  | array (items : List Json)
  | object (fields : List (Bytes × Json))

namespace Json

def typeName : Json → String
  | null => "null"
  | boolean _ => "boolean"
  | integer _ | float _ => "number"
  | string _ => "string"
  | array _ => "array"
  | object _ => "object"

def field (key : Bytes) : List (Bytes × Json) → Option Json
  | [] => none
  | (k, v) :: rest => if k = key then some v else field key rest

/-- The member of that name, of a value that is an object. -/
def member (name : String) : Json → Option Json
  | object fields => field (lit name) fields
  | _ => none

/-- `value[key]` on a value that may change: a missing member is created as
null, and so is the object when the value is null. The callers never look at
the value again under the same key, so the new member is not kept. -/
def index (key : String) : Json → Except Exception Json
  | object fields => .ok ((field (lit key) fields).getD null)
  | null => .ok null
  | other => .error ⟨.json, lit
      ("[json.exception.type_error.305] cannot use operator[] with a string argument with " ++
        other.typeName)⟩

def toStdString : Json → Except Exception Bytes
  | string s => .ok s
  | other => .error ⟨.json, lit
      ("[json.exception.type_error.302] type must be string, but is " ++ other.typeName)⟩

/-- `object[key] = value`; members are kept in the order of their keys. -/
def assign (key : Bytes) (value : Json) : List (Bytes × Json) → List (Bytes × Json)
  | [] => [(key, value)]
  | (k, v) :: rest =>
      if k = key then (key, value) :: rest
      else if key < k then (key, value) :: (k, v) :: rest
      else (k, v) :: assign key value rest

def ofFields (fields : List (String × Json)) : Json :=
  object (fields.foldl (fun acc f => assign (lit f.1) f.2 acc) [])

mutual

def wellEncoded : Json → Bool
  | string s => isUtf8 s
  | array items => wellEncodedItems items
  | object fields => wellEncodedFields fields
  | _ => true

def wellEncodedItems : List Json → Bool
  | [] => true
  | j :: rest => j.wellEncoded && wellEncodedItems rest

def wellEncodedFields : List (Bytes × Json) → Bool
  | [] => true
  | (k, v) :: rest => isUtf8 k && v.wellEncoded && wellEncodedFields rest

end

theorem wellEncoded_field {key : Bytes} {fields : List (Bytes × Json)} {value : Json}
    (h : wellEncodedFields fields = true) (found : field key fields = some value) :
    value.wellEncoded = true := by
  induction fields with
  | nil => cases found
  | cons f rest ih =>
    obtain ⟨k, v⟩ := f
    simp only [wellEncodedFields, Bool.and_eq_true] at h
    rw [field] at found
    split_ifs at found
    · cases found; exact h.1.2
    · exact ih h.2 found

@[simp] theorem field_assign_self (key : Bytes) (value : Json) (fields : List (Bytes × Json)) :
    field key (assign key value fields) = some value := by
  induction fields with
  | nil => simp [assign, field]
  | cons f rest ih =>
    obtain ⟨k, v⟩ := f
    simp only [assign]
    split_ifs with same <;> simp [field, same, ih]

@[simp] theorem field_assign_ne {key other : Bytes} (different : other ≠ key) (value : Json)
    (fields : List (Bytes × Json)) :
    field key (assign other value fields) = field key fields := by
  induction fields with
  | nil => simp [assign, field, different]
  | cons f rest ih =>
    obtain ⟨k, v⟩ := f
    simp only [assign]
    split_ifs with same
    · simp [field, same, different]
    · simp [field, different]
    · simp [field, ih]

theorem field_foldl_assign {key : Bytes} (fields : List (String × Json))
    (acc : List (Bytes × Json)) (absent : ∀ f ∈ fields, lit f.1 ≠ key) :
    field key (fields.foldl (fun acc f => assign (lit f.1) f.2 acc) acc) = field key acc := by
  induction fields generalizing acc with
  | nil => rfl
  | cons f fields ih =>
    rw [List.foldl_cons, ih _ fun g mem => absent g (List.mem_cons_of_mem _ mem),
      field_assign_ne (absent f (List.mem_cons_self ..))]

theorem member_ofFields_head {name : String} {value : Json} {fields : List (String × Json)}
    (absent : ∀ f ∈ fields, lit f.1 ≠ lit name) :
    (ofFields ((name, value) :: fields)).member name = some value := by
  rw [ofFields, member, List.foldl_cons, field_foldl_assign fields _ absent, field_assign_self]

theorem wellEncodedFields_assign {key : Bytes} (value : Json) {fields : List (Bytes × Json)}
    (fresh : field key fields = none) :
    wellEncodedFields (assign key value fields) =
      (isUtf8 key && value.wellEncoded && wellEncodedFields fields) := by
  induction fields with
  | nil => rfl
  | cons f rest ih =>
    obtain ⟨k, v⟩ := f
    rw [field] at fresh
    split_ifs at fresh with same
    simp only [assign, if_neg same]
    split_ifs
    · rfl
    · simp only [wellEncodedFields, ih fresh]
      ac_rfl

theorem wellEncodedFields_foldl (fields : List (String × Json)) (acc : List (Bytes × Json))
    (fresh : ∀ f ∈ fields, field (lit f.1) acc = none)
    (distinct : (fields.map fun f => lit f.1).Nodup)
    (plain : fields.all (fun f => isUtf8 (lit f.1)) = true) :
    wellEncodedFields (fields.foldl (fun acc f => assign (lit f.1) f.2 acc) acc) =
      (fields.all (fun f => f.2.wellEncoded) && wellEncodedFields acc) := by
  induction fields generalizing acc with
  | nil => rfl
  | cons f fields ih =>
    simp only [List.map_cons, List.nodup_cons, List.mem_map, not_exists, not_and] at distinct
    simp only [List.all_cons, Bool.and_eq_true] at plain
    have first := fresh f (List.mem_cons_self ..)
    have later : ∀ g ∈ fields, field (lit g.1) (assign (lit f.1) f.2 acc) = none := by
      intro g mem
      rw [field_assign_ne (fun same => distinct.1 g mem same.symm)]
      exact fresh g (List.mem_cons_of_mem _ mem)
    rw [List.foldl_cons, ih _ later distinct.2 plain.2, wellEncodedFields_assign _ first, plain.1,
      List.all_cons]
    simp only [Bool.true_and]
    ac_rfl

theorem wellEncoded_ofFields {fields : List (String × Json)}
    (distinct : (fields.map fun f => lit f.1).Nodup)
    (plain : fields.all (fun f => isUtf8 (lit f.1)) = true) :
    (ofFields fields).wellEncoded = fields.all fun f => f.2.wellEncoded := by
  have folded := wellEncodedFields_foldl fields [] (fun _ _ => rfl) distinct plain
  simp only [ofFields, wellEncoded, folded, wellEncodedFields, Bool.and_true]

theorem index_object {key : String} {j value : Json} (h : index key j = .ok value)
    (encoded : j.wellEncoded = true) : value.wellEncoded = true := by
  cases j with
  | null => cases h; rfl
  | object fields =>
    cases found : field (lit key) fields with
    | none =>
      simp only [index, found, Option.getD_none, Except.ok.injEq] at h
      rw [← h]
      rfl
    | some v =>
      simp only [index, found, Option.getD_some, Except.ok.injEq] at h
      rw [← h]
      exact wellEncoded_field encoded found
  | boolean | integer | float | string | array => cases h

theorem toStdString_eq_ok {j : Json} {s : Bytes} (h : j.toStdString = .ok s) : j = string s := by
  cases j with
  | string t => cases h; rfl
  | null | boolean | integer | float | array | object => cases h

theorem typeName_utf8 (j : Json) : isUtf8 (lit j.typeName) = true := by
  cases j <;> (simp only [typeName]; decide)

theorem index_error {key : String} {j : Json} {e : Exception} (h : index key j = .error e) :
    e.kind = .json ∧ isUtf8 e.what = true := by
  cases j with
  | null | object => cases h
  | boolean | integer | float | string | array =>
    cases h
    exact ⟨rfl, by rw [lit_append]; exact isUtf8_append (by decide) (typeName_utf8 _)⟩

theorem toStdString_error {j : Json} {e : Exception} (h : j.toStdString = .error e) :
    e.kind = .json ∧ isUtf8 e.what = true := by
  cases j with
  | string => cases h
  | null | boolean | integer | float | array | object =>
    cases h
    exact ⟨rfl, by rw [lit_append]; exact isUtf8_append (by decide) (typeName_utf8 _)⟩

end Json

/-- What `json::parse` reports: the last token it read is quoted byte by byte,
control characters apart, between texts of its own. -/
structure ParseError where
  before : Text
  lastRead : Bytes
  after : Text

def ParseError.what (e : ParseError) : Bytes := e.before.val ++ e.lastRead ++ e.after.val

theorem ParseError.isUtf8_what (e : ParseError) : isUtf8 e.what = isUtf8 e.lastRead := by
  rw [what, isUtf8_append_right e.after.property, isUtf8_append_left e.before.property]

/-- The JSON library: `parse` yields strings that are UTF-8 only, `dump` has a
text for every well encoded value and throws on any other, with a text that is
UTF-8 itself. -/
structure JsonLib where
  parse : Bytes → Except ParseError Json
  text : (indent : Int) → Json → Bytes
  invalidUtf8 : Json → Text
  parse_wellEncoded : ∀ body j, parse body = .ok j → j.wellEncoded = true

namespace JsonLib

def parseBody (lib : JsonLib) (body : Bytes) : Except Exception Json :=
  match lib.parse body with
  | .ok j => .ok j
  | .error e => .error ⟨.json, e.what⟩

/-- The body is refused, and the report of it quotes bytes that are not UTF-8. -/
def quotesInvalid (lib : JsonLib) (body : Bytes) : Bool :=
  match lib.parse body with
  | .ok _ => false
  | .error e => !isUtf8 e.lastRead

theorem parseBody_error (lib : JsonLib) {body : Bytes} {e : Exception}
    (h : lib.parseBody body = .error e) :
    e.kind = .json ∧ isUtf8 e.what = !lib.quotesInvalid body := by
  unfold parseBody at h
  split at h
  · cases h
  next parsed =>
    cases h
    simp [quotesInvalid, parsed, ParseError.isUtf8_what]

theorem parseBody_ok (lib : JsonLib) {body : Bytes} {j : Json} (h : lib.parseBody body = .ok j) :
    j.wellEncoded = true ∧ lib.quotesInvalid body = false := by
  unfold parseBody at h
  split at h
  next parsed =>
    cases h
    exact ⟨lib.parse_wellEncoded body j parsed, by simp [quotesInvalid, parsed]⟩
  · cases h

def dump (lib : JsonLib) (indent : Int) (j : Json) : Except Exception Bytes :=
  if j.wellEncoded then .ok (lib.text indent j) else .error ⟨.json, (lib.invalidUtf8 j).val⟩

theorem dump_ok (lib : JsonLib) {indent : Int} {j : Json} (encoded : j.wellEncoded = true) :
    lib.dump indent j = .ok (lib.text indent j) := if_pos encoded

theorem dump_error (lib : JsonLib) {indent : Int} {j : Json} (bad : j.wellEncoded = false) :
    lib.dump indent j = .error ⟨.json, (lib.invalidUtf8 j).val⟩ := by
  simp [dump, bad]

def ofTable (table : List (Bytes × Json)) (text : (indent : Int) → Json → Bytes)
    (encoded : (table.all fun entry => entry.2.wellEncoded) = true) : JsonLib where
  parse body :=
    match table.find? (·.1 = body) with
    | some entry => .ok entry.2
    | none => .error ⟨⟨lit "syntax error while parsing value - invalid literal; last read: '",
        by decide⟩, body, ⟨lit "'", by decide⟩⟩
  text := text
  invalidUtf8 _ := ⟨lit "[json.exception.type_error.316] invalid UTF-8 byte", by decide⟩
  parse_wellEncoded body j h := by
    split at h
    next entry found =>
      cases h
      exact List.all_eq_true.mp encoded entry (List.mem_of_find?_eq_some found)
    · cases h

end JsonLib

end Ccfolio.JsonValue
