import FrpMeo.Lib.Bytes

/-!
# JSON texts

The texts that `json.Marshal` makes of strings, numbers, arrays and objects, and the number of their
bytes. `<`, `>` and `&` are escaped like control characters, and empty fields with `omitempty` are
left out (`Option` here).
-/

namespace FrpMeo.Lib.Json

/-! ## Strings -/

def hexDigit (n : Nat) : UInt8 := UInt8.ofNat (if n < 10 then 48 + n else 87 + n)

def shortEscape (c : Char) : Option UInt8 :=
  if c.toNat = 34 ∨ c.toNat = 92 then some (UInt8.ofNat c.toNat)
  else if c.toNat = 8 then some 98
  else if c.toNat = 12 then some 102
  else if c.toNat = 10 then some 110
  else if c.toNat = 13 then some 114
  else if c.toNat = 9 then some 116
  else none

/-- The other escaped characters: control characters, three of HTML, and the two line separators. -/
def longEscape (c : Char) : Bool :=
  c.toNat < 32 || c = '<' || c = '>' || c = '&' || c.toNat = 0x2028 || c.toNat = 0x2029

def escape (c : Char) : Bytes :=
  match shortEscape c with
  | some b => [92, b]
  | none =>
    if longEscape c then
      [92, 117, hexDigit (c.toNat / 4096), hexDigit (c.toNat / 256 % 16),
        hexDigit (c.toNat / 16 % 16), hexDigit (c.toNat % 16)]
    else String.utf8EncodeChar c

def escapedSize (c : Char) : Nat :=
  if (shortEscape c).isSome then 2 else if longEscape c then 6 else c.utf8Size

theorem length_escape (c : Char) : (escape c).length = escapedSize c := by
  unfold escape escapedSize
  cases shortEscape c with
  | some b => rfl
  | none => by_cases hlong : longEscape c = true <;> simp [hlong]

def quote (s : String) : Bytes := 34 :: (s.toList.flatMap escape ++ [34])

def quotedSize (s : String) : Nat := (s.toList.map escapedSize).sum + 2

theorem length_quote (s : String) : (quote s).length = quotedSize s := by
  simp [quote, quotedSize, List.length_flatMap, length_escape]

/-! ## Arrays and objects -/

def commas : List Bytes → Bytes
  | [] => []
  | [text] => text
  | text :: texts => text ++ 44 :: commas texts

def commasSize (sizes : List Nat) : Nat := sizes.sum + (sizes.length - 1)

theorem length_commas (texts : List Bytes) :
    (commas texts).length = commasSize (texts.map List.length) := by
  induction texts with
  | nil => rfl
  | cons text texts ih =>
    cases texts with
    | nil => simp [commas, commasSize]
    | cons next texts =>
      simp only [commas, List.length_append, List.length_cons, ih, commasSize, List.map_cons,
        List.sum_cons, List.length_map]
      omega

def array (items : List Bytes) : Bytes := 91 :: (commas items ++ [93])

def strings (items : List String) : Bytes := array (items.map quote)

def stringsSize (items : List String) : Nat := commasSize (items.map quotedSize) + 2

theorem length_strings (items : List String) : (strings items).length = stringsSize items := by
  simp [strings, stringsSize, array, length_commas, length_quote, Function.comp_def]

abbrev Field (α : Type) := String × Option α

def present {α : Type} (fields : List (Field α)) : List (String × α) :=
  fields.filterMap fun f => f.2.map fun value => (f.1, value)

def member (m : String × Bytes) : Bytes := quote m.1 ++ 58 :: m.2

def object (fields : List (Field Bytes)) : Bytes :=
  123 :: (commas ((present fields).map member) ++ [125])

def objectSize (fields : List (Field Nat)) : Nat :=
  commasSize ((present fields).map fun m => quotedSize m.1 + 1 + m.2) + 2

theorem present_map {α β : Type} (f : α → β) (fields : List (Field α)) :
    present (fields.map fun e => (e.1, e.2.map f)) =
      (present fields).map fun e => (e.1, f e.2) := by
  induction fields with
  | nil => rfl
  | cons e fields ih =>
    obtain ⟨key, value⟩ := e
    cases value with
    | none | some => simpa [present] using ih

def fieldSize (f : Field Bytes) : Field Nat := (f.1, f.2.map List.length)

theorem length_object (fields : List (Field Bytes)) :
    (object fields).length = objectSize (fields.map fieldSize) := by
  have hmember : ∀ m : String × Bytes, (member m).length = quotedSize m.1 + 1 + m.2.length := by
    intro m
    rw [member, List.length_append, List.length_cons, length_quote]
    omega
  have hpresent : present (fields.map fieldSize) =
      (present fields).map fun e => (e.1, e.2.length) := present_map List.length fields
  simp only [object, objectSize, length_commas, hpresent, List.length_cons, List.length_append,
    List.map_map, Function.comp_def, hmember, List.length_nil, Nat.zero_add, Nat.add_assoc]

def stringMap (entries : List (String × String)) : Bytes :=
  object (entries.map fun e => (e.1, some (quote e.2)))

def stringMapSize (entries : List (String × String)) : Nat :=
  objectSize (entries.map fun e => (e.1, some (quotedSize e.2)))

theorem length_stringMap (entries : List (String × String)) :
    (stringMap entries).length = stringMapSize entries := by
  simp [stringMap, stringMapSize, length_object, fieldSize, length_quote, Function.comp_def]

/-! ## Numbers and truth values -/

def int (n : Int) : Bytes := Bytes.ascii (toString n)

def intSize (n : Int) : Nat := (toString n).toList.length

theorem length_int (n : Int) : (int n).length = intSize n := by
  simp [int, intSize, Bytes.ascii]

def bool (b : Bool) : Bytes := Bytes.ascii (if b then "true" else "false")

/-! ## Fields with `omitempty` -/

def textField (key s : String) : Field Bytes := (key, if s = "" then none else some (quote s))

def textFieldSize (key s : String) : Field Nat :=
  (key, if s = "" then none else some (quotedSize s))

def listField (key : String) (items : List String) : Field Bytes :=
  (key, if items = [] then none else some (strings items))

def listFieldSize (key : String) (items : List String) : Field Nat :=
  (key, if items = [] then none else some (stringsSize items))

def mapField (key : String) (entries : List (String × String)) : Field Bytes :=
  (key, if entries = [] then none else some (stringMap entries))

def mapFieldSize (key : String) (entries : List (String × String)) : Field Nat :=
  (key, if entries = [] then none else some (stringMapSize entries))

def intField (key : String) (n : Int) : Field Bytes := (key, if n = 0 then none else some (int n))

def intFieldSize (key : String) (n : Int) : Field Nat :=
  (key, if n = 0 then none else some (intSize n))

def flagField (key : String) (b : Bool) : Field Bytes := (key, if b then some (bool b) else none)

def flagFieldSize (key : String) (b : Bool) : Field Nat := (key, if b then some 4 else none)

@[simp] theorem fieldSize_textField (key s : String) :
    fieldSize (textField key s) = textFieldSize key s := by
  by_cases h : s = "" <;> simp [fieldSize, textField, textFieldSize, h, length_quote]

@[simp] theorem fieldSize_listField (key : String) (items : List String) :
    fieldSize (listField key items) = listFieldSize key items := by
  by_cases h : items = [] <;> simp [fieldSize, listField, listFieldSize, h, length_strings]

@[simp] theorem fieldSize_mapField (key : String) (entries : List (String × String)) :
    fieldSize (mapField key entries) = mapFieldSize key entries := by
  by_cases h : entries = [] <;> simp [fieldSize, mapField, mapFieldSize, h, length_stringMap]

@[simp] theorem fieldSize_intField (key : String) (n : Int) :
    fieldSize (intField key n) = intFieldSize key n := by
  by_cases h : n = 0 <;> simp [fieldSize, intField, intFieldSize, h, length_int]

@[simp] theorem fieldSize_flagField (key : String) (b : Bool) :
    fieldSize (flagField key b) = flagFieldSize key b := by
  cases b
  · rfl
  · simp [fieldSize, flagField, flagFieldSize, bool, Bytes.ascii]

end FrpMeo.Lib.Json
