import EloquentEntity.Database.Engine
import EloquentEntity.Text.Blank
import EloquentEntity.Text.Utf8

/-!
The tables of a database file, read from its bytes.

The file is a row of pages. The first one starts a tree of records that tell of all tables, each
with the statement that made it; the columns are read from that statement.
-/

namespace EloquentEntity.Database.FileFormat

/-! ### Numbers -/

/-- The byte at a place, and zero beyond the end. -/
def byteAt (b : ByteArray) (i : Nat) : Nat := if h : i < b.size then b[i].toNat else 0

/-- The number in `n` bytes, the highest first. -/
def numberAt (b : ByteArray) (i : Nat) : Nat → Nat
  | 0 => 0
  | n + 1 => 256 * numberAt b i n + byteAt b (i + n)

/-- Reads a number of at most `n` further bytes of seven bits each; the ninth byte has eight. -/
def varintFrom (b : ByteArray) : Nat → Nat → Nat → Nat × Nat
  | 0, i, acc => (256 * acc + byteAt b i, i + 1)
  | n + 1, i, acc =>
    let c := byteAt b i
    if c < 128 then (128 * acc + c, i + 1) else varintFrom b n (i + 1) (128 * acc + (c - 128))

/-- The number of variable length at a place, and the place after it. -/
def varint (b : ByteArray) (i : Nat) : Nat × Nat := varintFrom b 8 i 0

/-! ### Pages -/

def magic : List UInt8 := Text.Utf8.encode "SQLite format 3\x00".toList

def isDatabase (b : ByteArray) : Bool := (b.extract 0 16).toList == magic

def pageSize (b : ByteArray) : Nat :=
  match numberAt b 16 2 with
  | 1 => 65536
  | n => n

/-- The part of a page that holds data. -/
def usableSize (b : ByteArray) : Nat := pageSize b - byteAt b 20

/-- Where a page starts; pages are counted from one. -/
def pageStart (b : ByteArray) (page : Nat) : Nat := (page - 1) * pageSize b

/-- The rest of a record in the pages that continue it, of which there are at most `fuel`. -/
def overflow (b : ByteArray) : Nat → Nat → Nat → ByteArray
  | 0, _, _ => .empty
  | fuel + 1, page, left =>
    if page = 0 ∨ left = 0 then .empty
    else
      let start := pageStart b page
      let n := min left (usableSize b - 4)
      b.extract (start + 4) (start + 4 + n) ++ overflow b fuel (numberAt b start 4) (left - n)

/-- How many bytes of a record of that size stand in its own page. -/
def localSize (b : ByteArray) (size : Nat) : Nat :=
  let u := usableSize b
  if size ≤ u - 35 then size
  else
    let least := (u - 12) * 32 / 255 - 23
    let n := least + (size - least) % (u - 4)
    if n ≤ u - 35 then n else least

def payload (b : ByteArray) (cell : Nat) : ByteArray :=
  let (size, i) := varint b cell
  let (_, i) := varint b i
  let n := localSize b size
  b.extract i (i + n) ++ overflow b (size + 1) (numberAt b (i + n) 4) (size - n)

/-- The cells of a page, whose header stands at `header`. -/
def cells (b : ByteArray) (page header width : Nat) : List Nat :=
  (List.range (numberAt b (header + 3) 2)).map fun k =>
    pageStart b page + numberAt b (header + width + 2 * k) 2

/-- The records below a page, in order; the tree has at most `depth` levels. -/
def records (b : ByteArray) : Nat → Nat → List ByteArray
  | 0, _ => []
  | depth + 1, page =>
    let header := pageStart b page + if page = 1 then 100 else 0
    match byteAt b header with
    | 13 => (cells b page header 8).map (payload b)
    | 5 =>
      (cells b page header 12).flatMap (fun cell => records b depth (numberAt b cell 4)) ++
        records b depth (numberAt b (header + 8) 4)
    | _ => []

/-! ### Records -/

def valueSize : Nat → Nat
  | 0 | 8 | 9 | 10 | 11 => 0
  | 5 => 6
  | 6 | 7 => 8
  | n => if n ≤ 4 then n else (n - 12) / 2

/-- The types of the values in a record, from `i` up to `stop`. -/
def valueTypes (r : ByteArray) (stop : Nat) : Nat → Nat → List Nat
  | 0, _ => []
  | fuel + 1, i =>
    if stop ≤ i then []
    else
      let (type, i) := varint r i
      type :: valueTypes r stop fuel i

/-- The values of these types from a place on, as bytes. -/
def valuesFrom (r : ByteArray) : Nat → List Nat → List ByteArray
  | _, [] => []
  | i, type :: types =>
    r.extract i (i + valueSize type) :: valuesFrom r (i + valueSize type) types

def texts (r : ByteArray) : List String :=
  let (stop, i) := varint r 0
  (valuesFrom r stop (valueTypes r stop stop i)).map fun v =>
    String.ofList (Text.Utf8.decodeLossy v.toList)

/-! ### Statements -/

def closing (c : Char) : Option Char :=
  if c == '\"' || c == '\x60' || c == '\'' then some c
  else if c == '[' then some ']'
  else none

/-- The column definitions between the outer parentheses. `quote` is the quote that is waited
for, `depth` counts the parentheses that are open. -/
def definitions : Option Char → Nat → List Char → List (List Char)
  | _, _, [] => []
  | quote, depth, c :: s =>
    let keep := fun rest =>
      match depth, rest with
      | 0, rest => rest
      | _, [] => [[c]]
      | _, d :: ds => (c :: d) :: ds
    match quote with
    | some q => keep (definitions (if c == q then none else quote) depth s)
    | none =>
      match c, depth with
      | ',', 1 => [] :: definitions none 1 s
      | '(', n => keep (definitions none (n + 1) s)
      | ')', 0 | ')', 1 => [[]]
      | ')', n + 1 => keep (definitions none n s)
      | c, n => keep (definitions (closing c) n s)

/-- A name up to its closing quote, which is doubled where it is part of the name. -/
def quotedName (q : Char) : List Char → List Char
  | [] => []
  | [_] => []
  | c :: d :: s =>
    if c != q then c :: quotedName q (d :: s)
    else if d == q then c :: quotedName q s
    else []

/-- Words that start a definition of something else than a column. -/
def constraintWords : List String := ["constraint", "primary", "unique", "check", "foreign"]

def columnName? (definition : List Char) : Option String :=
  match Text.trimLeft definition with
  | [] => none
  | c :: s =>
    match closing c with
    | some q => some (String.ofList (quotedName q (s ++ [' '])))
    | none =>
      let word := (c :: s).takeWhile fun c => !Text.isBlank c && c != '('
      if constraintWords.contains (String.ofList (word.map Char.toLower)) then none
      else some (String.ofList word)

def columnNames (statement : String) : List String :=
  (definitions none 0 statement.toList).filterMap columnName?

/-! ### Tables -/

def tableOf? (values : List String) : Option Table :=
  match values with
  | ["table", name, _, _, statement] => some (name, columnNames statement)
  | _ => none

/-- The tables of a database file, if the bytes are one. -/
def tables? (b : ByteArray) : Option (List Table) :=
  if isDatabase b then some ((records b 20 1).filterMap fun r => tableOf? (texts r)) else none

end EloquentEntity.Database.FileFormat
