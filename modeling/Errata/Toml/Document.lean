import Errata.Toml.Scalar
import Errata.Toml.Value

/-!
# Reading a TOML document

A document is a sequence of lines. A line holds an entry of the table at hand, or the head of
another table, or nothing; a comment may stand at its end.

## Main definitions

* `Toml.Marks.holds`: whether a mark on what may no longer be changed holds for a key.
* `Toml.Marks.put`, `Toml.Marks.clear`: puts a mark on a key, takes all marks off a key.
* `Toml.Marks.postpone`, `Toml.Marks.settle`: marks that hold from the next head on.
* `Toml.readValue`: reads a value of any kind.
* `Toml.Draft`: a document that is read in part.
* `Toml.Draft.addEntry`, `Toml.Draft.openTable`, `Toml.Draft.openItem`: what a statement does.
* `Toml.read`: reads a document.
-/

/-! ## What may no longer be changed

While a document is read, a table that has a head of its own must not get a second one, and a table
or an array that was written out on the spot must not be changed at all. Marks on dotted keys say
so. A mark may hold for every key that starts with its own.
-/

namespace Errata.Toml

/-- What a mark says. -/
inductive Flag where
  /-- The table or array must not be changed. -/
  | frozen
  /-- The table has a head of its own, or was made by a dotted key. -/
  | declared
deriving DecidableEq, Repr

/-- A mark on a dotted key. -/
structure Mark where
  /-- The key. -/
  key : Key
  /-- What the mark says. -/
  flag : Flag
  /-- Whether it holds for every key that starts with this one. -/
  deep : Bool
deriving DecidableEq, Repr

/-- Whether the mark holds for a key. -/
def Mark.covers (m : Mark) (key : Key) : Bool :=
  m.key == key || (m.deep && m.key.isPrefixOf key)

/-- The marks that were put so far. -/
structure Marks where
  /-- The marks that hold. -/
  settled : List Mark := []
  /-- The keys that are declared from the next head on. -/
  postponed : List Key := []

namespace Marks

/-- Whether a mark holds for a key. -/
def holds (marks : Marks) (flag : Flag) (key : Key) : Bool :=
  marks.settled.any fun m => m.flag = flag && m.covers key

/-- Puts a mark on a key. -/
def put (marks : Marks) (m : Mark) : Marks :=
  { marks with settled := m :: marks.settled }

/-- Declares a key. -/
def declare (marks : Marks) (key : Key) : Marks :=
  marks.put ⟨key, .declared, false⟩

/-- Freezes a key and all that start with it. -/
def freeze (marks : Marks) (key : Key) : Marks :=
  marks.put ⟨key, .frozen, true⟩

/-- Takes the marks off all keys that start with a key. -/
def clear (marks : Marks) (key : Key) : Marks :=
  { marks with settled := marks.settled.filter fun m => !key.isPrefixOf m.key }

/-- Declares a key from the next head on. -/
def postpone (marks : Marks) (key : Key) : Marks :=
  { marks with postponed := key :: marks.postponed }

/-- Declares the keys that were put off until the next head. -/
def settle (marks : Marks) : Marks :=
  { marks.postponed.foldl declare marks with postponed := [] }

end Marks

end Errata.Toml

/-! ## Reading a TOML document -/

namespace Errata.Toml

/-! ### Values -/

/-- A table that is written out on the spot, as far as it is read. -/
structure Inline where
  /-- The entries. -/
  table : Table := []
  /-- What may no longer be changed. -/
  marks : Marks := {}

/-- Adds an entry to a table that is written out on the spot. -/
def Inline.add (inline : Inline) (key : Key) (v : Value) : Except Fault Inline := do
  if inline.marks.holds .frozen key then throw (.immutable key)
  let last := key.getLastD ""
  let some taken := inline.table.update? false some key.dropLast | throw .overwritten
  let some table :=
      taken.update? false
        (fun t => if (t.get? last).isSome then none else some (t.set last v)) key.dropLast
    | throw (.duplicate last)
  return { inline with table }

/-- Freezes an entry of a table that is written out on the spot, if its value has parts. -/
def Inline.freeze (inline : Inline) (key : Key) (v : Value) : Inline :=
  if v.isContainer then { inline with marks := inline.marks.freeze key } else inline

/-- A fault of an operation, at the front of a text. -/
def located {α : Type} (s : List Char) : Except Fault α → Except Problem α
  | .ok a => .ok a
  | .error fault => fault.at s

/-- Reads a dotted key with the equals sign after it. -/
def readKeyBefore (s : List Char) : Except Problem (Key × Tail s) := do
  let (key, after) ← readKey s
  match after.next? '=' with
  | some t =>
    let start := skipSpaces t.1
    return (key, ⟨start.1, Nat.lt_of_le_of_lt start.2 t.2⟩)
  | none => Fault.equalsSign.at after.1

/-- What an item or an entry starts with is read before a shorter text. -/
theorem succ_double_lt {m n : Nat} (h : m < n) : 2 * m + 1 < 2 * n := by
  omega

mutual

/-- Reads a value of any kind. How deeply an interpreter can nest calls is set apart: it may give up
on some 490 arrays in each other. -/
def readValue (s : List Char) : Except Problem (Reading s Value) :=
  match s with
  | '[' :: t => do
    let start ← skipLines t
    match start.next? ']' with
    | some u => return (.array [], u.rest.afterHead)
    | none =>
      let (items, rest) ← readItems start.1
      return (.array items, (rest.within start.2).afterHead)
  | '\x7b' :: t => do
    let start := skipSpaces t
    match start.next? '\x7d' with
    | some u => return (.table [], u.rest.afterHead)
    | none =>
      let (entries, rest) ← readEntries {} start.1
      return (.table entries, (rest.within start.2).afterHead)
  | s =>
    match readString? s, readScalar? s with
    | some reading, _ => do
      let (text, rest) ← reading
      return (.text (String.ofList text), rest)
    | none, some reading => reading
    | none, none => Fault.value.at s
termination_by 2 * s.length
decreasing_by
  · exact succ_double_lt (Nat.lt_succ_of_le start.2)
  · exact succ_double_lt (Nat.lt_succ_of_le start.2)

/-- Reads the items of an array and its closing bracket, starting with an item. -/
def readItems (s : List Char) : Except Problem (Reading s (List Value)) := do
  let (item, after) ← readValue s
  let mark ← skipLines after.1
  match mark.next? ']', mark.next? ',' with
  | some t, _ => return ([item], t.rest.within after.2)
  | none, some t =>
    let start ← skipLines t.1
    match start.next? ']' with
    | some u => return ([item], (u.rest.within (Nat.le_of_lt t.2)).within after.2)
    | none =>
      let (items, rest) ← readItems start.1
      return (item :: items,
        ((rest.within start.2).within (Nat.le_of_lt t.2)).within after.2)
  | none, none => Fault.array.at mark.1
termination_by 2 * s.length + 1
decreasing_by
  · exact Nat.lt_succ_self _
  · exact Nat.lt_succ_of_lt
      (succ_double_lt (Nat.lt_of_le_of_lt start.2 (Nat.lt_of_lt_of_le t.2 after.2)))

/-- Reads the entries of a table that is written out on the spot, and its closing brace. -/
def readEntries (inline : Inline) (s : List Char) : Except Problem (Reading s Table) := do
  let (key, start) ← readKeyBefore s
  let (v, after) ← readValue start.1
  let inline ← located after.1 (inline.add key v)
  let mark := skipSpaces after.1
  match mark.next? '\x7d', mark.next? ',' with
  | some t, _ => return (inline.table, (t.rest.within after.2).within (Nat.le_of_lt start.2))
  | none, some t =>
    let next := skipSpaces t.1
    let (table, rest) ← readEntries (inline.freeze key v) next.1
    return (table,
      (((rest.within next.2).within (Nat.le_of_lt t.2)).within after.2).within
        (Nat.le_of_lt start.2))
  | none, none => Fault.inlineTable.at mark.1
termination_by 2 * s.length + 1
decreasing_by
  · exact Nat.lt_of_succ_lt (Nat.lt_succ_of_lt (succ_double_lt start.2))
  · exact Nat.lt_succ_of_lt
      (succ_double_lt (Nat.lt_of_le_of_lt next.2
        (Nat.lt_of_lt_of_le t.2 (Nat.le_trans after.2 (Nat.le_of_lt start.2)))))

end

/-! ### Statements -/

/-- A document that is read in part. -/
structure Draft where
  /-- What is read so far. -/
  table : Table := []
  /-- What may no longer be changed. -/
  marks : Marks := {}
  /-- The key of the table at hand. -/
  head : Key := []

namespace Draft

/-- Declares the keys that a dotted key passes on its way from the table at hand. -/
def passThrough (head : Key) (key : Key) (marks : Marks) : Except Fault Marks :=
  ((List.range key.length).drop 1).foldlM (fun marks i =>
    let passed := head ++ key.take i
    if marks.holds .declared passed then .error (.redefined passed)
    else .ok (marks.postpone passed)) marks

/-- Adds an entry to the table at hand. -/
def addEntry (d : Draft) (key : Key) (v : Value) : Except Fault Draft := do
  let marks ← passThrough d.head key d.marks
  let parent := d.head ++ key.dropLast
  let last := key.getLastD ""
  if marks.holds .frozen parent then throw (.immutable parent)
  let some table := d.table.update? true
      (fun t => if (t.get? last).isSome then none else some (t.set last v)) parent
    | throw .overwritten
  let marks := if v.isContainer then marks.freeze (d.head ++ key) else marks
  return { d with table, marks }

/-- Opens a table by its head. -/
def openTable (d : Draft) (key : Key) : Except Fault Draft := do
  if d.marks.holds .declared key || d.marks.holds .frozen key then throw (.declaredTwice key)
  let some table := d.table.update? true some key | throw .overwritten
  return { table, marks := d.marks.declare key, head := key }

/-- The table with an item more in an array of tables. -/
def appendItem (last : String) (t : Table) : Option Table :=
  match t.get? last with
  | none => some (t.set last (.array [.table []]))
  | some (.array items) => some (t.set last (.array (items ++ [.table []])))
  | some _ => none

/-- Opens the next item of an array of tables by its head. -/
def openItem (d : Draft) (key : Key) : Except Fault Draft := do
  if d.marks.holds .frozen key then throw (.immutable key)
  let some table := d.table.update? true (appendItem (key.getLastD "")) key.dropLast
    | throw .overwritten
  return { table, marks := (d.marks.clear key).declare key, head := key }

/-- Reads the head of a table after its first bracket. -/
def readHead (d : Draft) (s : List Char) : Except Problem (Reading s Draft) :=
  let d := { d with marks := d.marks.settle }
  match s with
  | '[' :: t => do
    let start := skipSpaces t
    let (key, after) ← readKey start.1
    let d ← located after.1 (d.openItem key)
    match (after.next? ']').bind (·.rest.next? ']') with
    | some u => return (d, (u.rest.within start.2).afterHead)
    | none => Fault.itemHead.at after.1
  | s => do
    let start := skipSpaces s
    let (key, after) ← readKey start.1
    let d ← located after.1 (d.openTable key)
    match after.next? ']' with
    | some u => return (d, u.rest.within start.2)
    | none => Fault.tableHead.at after.1

/-- Reads an entry of the table at hand. -/
def readEntry (d : Draft) (s : List Char) : Except Problem (Reading s Draft) := do
  let (key, start) ← readKeyBefore s
  let (v, after) ← readValue start.1
  let d ← located after.1 (d.addEntry key v)
  return (d, after.within (Nat.le_of_lt start.2))

/-- Reads the statement at the front of a line that is not empty. -/
def readStatement (d : Draft) : (s : List Char) → Except Problem (Reading s Draft)
  | '[' :: t => do
    let (d, rest) ← d.readHead t
    return (d, rest.afterHead)
  | c :: t =>
    if isBareKey c || c == '"' || c == '\'' then d.readEntry (c :: t)
    else if c = '#' then .ok (d, .all _)
    else Fault.statement.at (c :: t)
  | [] => .ok (d, .all _)

/-- Reads the lines of a document. -/
def readLines (d : Draft) (s : List Char) : Except Problem Draft :=
  let start := skipSpaces s
  match start.next? '\n' with
  | some t => d.readLines t.1
  | none => do
    let (d, afterStatement) ← d.readStatement start.1
    let afterSpaces := skipSpaces afterStatement.1
    let afterComment ← skipComment afterSpaces.1
    match afterComment.next? '\n' with
    | some t => d.readLines t.1
    | none =>
      if afterComment.1.isEmpty then return d else Fault.statementEnd.at afterComment.1
termination_by s.length
decreasing_by
  · exact t.2
  · exact Nat.lt_of_lt_of_le t.2
      (Nat.le_trans afterSpaces.2 (Nat.le_trans afterStatement.2 start.2))

end Draft

/-- Reads a document. -/
def read (document : List Char) : Except Problem Table :=
  return (← Draft.readLines {} (joinLineEnds document)).table

end Errata.Toml
