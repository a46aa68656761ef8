import Errata.CommandLine.Arguments
import Errata.Proofs.Outcome

/-!
# A switch more

The switch for comparing modules takes no value and leaves the row of sources as it is. So it may be
put in front of any command line: whatever else is read of the words stays the same.

* `Arguments.checking`, `Request.checking`: what is asked for if modules are compared.
* `Reader.read_checking`: **what is read of the words** does not depend on the switch.
* **`Request.ofWords_check`**: the command line with the switch in front.
-/

namespace Errata.CommandLine

/-- What is asked for if modules are compared. -/
def Arguments.checking (a : Arguments) : Arguments :=
  { a with check := true }

/-- What is asked for if modules are compared. -/
def Request.checking : Request → Request
  | help => help
  | work a => work a.checking

namespace Reader

/-- A command line that is read in part, where the switch was met. -/
def checking (r : Reader) : Reader :=
  { r with arguments := r.arguments.checking }

section

variable (r : Reader) (s : Switch) (text : String)

/-- The row of sources ends all the same. -/
@[simp] theorem endRow_checking : r.checking.endRow = r.endRow.checking := by
  unfold endRow checking
  split <;> rfl

/-- An argument is added all the same. -/
@[simp] theorem addArgument_checking :
    r.checking.addArgument text = (r.addArgument text).checking := by
  unfold addArgument checking
  split <;> rfl

/-- Two dashes are passed over all the same. -/
@[simp] theorem addDashes_checking : r.checking.addDashes = r.addDashes.checking := by
  unfold addDashes checking
  split <;> rfl

/-- A word that means nothing is added all the same. -/
@[simp] theorem addLeftover_checking :
    r.checking.addLeftover text = (r.addLeftover text).checking := by
  rw [addLeftover, endRow_checking]
  rfl

/-- A switch is given its value all the same. -/
@[simp] theorem give_checking : r.checking.give s text = (r.give s text).checking := by
  rw [give, endRow_checking]
  cases s <;> rfl

end

/-- Switches are turned on all the same. -/
theorem foldl_turnOn_checking (switches : List Switch) (a : Arguments) :
    switches.foldl Arguments.turnOn a.checking = (switches.foldl Arguments.turnOn a).checking := by
  induction switches generalizing a with
  | nil => rfl
  | cons s switches ih =>
    have hone : a.checking.turnOn s = (a.turnOn s).checking := by cases s <;> rfl
    rw [List.foldl_cons, List.foldl_cons, hone, ih]

/-- Switches are turned on all the same, unless one of them asks for help. -/
@[simp] theorem turnOn?_checking (r : Reader) (switches : List Switch) :
    r.checking.turnOn? switches = (r.turnOn? switches).map checking := by
  unfold turnOn?
  split
  · rfl
  · rw [endRow_checking, checking, checking, foldl_turnOn_checking]
    rfl

/-! ### Reading -/

/-- Goes on to read after switches were turned on, unless one of them asks for help. -/
def turnedOn (r : Reader) (switches : List Switch) (next : Reader → Except Misuse Request) :
    Except Misuse Request :=
  match r.turnOn? switches with
  | none => .ok .help
  | some r => next r

/-- Goes on to read after a word of switches. -/
def goOn (r : Reader) (rest : List Word) : List Switch × Ending → Except Misuse Request
  | (before, .valued last value) => r.turnedOn before fun r => (r.give last value).read rest
  | (before, .leftover text) => r.turnedOn before fun r => (r.addLeftover text).read rest
  | (before, .bare last) =>
    if last.takesValue then
      match rest with
      | .argument value :: rest => r.turnedOn before fun r => (r.give last value).read rest
      | _ => .error (.missingValue last)
    else r.turnedOn (before ++ [last]) fun r => r.read rest

/-- A word of switches is taken apart, and what it ends with says how to go on. -/
theorem read_switch (r : Reader) (s : Switch) (byLetter : Bool) (attached : Option Attachment)
    (rest : List Word) :
    r.read (.switch s byLetter attached :: rest) =
      (match attached with
        | none => .ok ([], .bare s)
        | some a => unfold s byLetter a.afterEquals a.text) >>= r.goOn rest := by
  cases attached with
  | none =>
    rw [read]
    refine bind_congr fun understood => ?_
    obtain ⟨before, ending⟩ := understood
    cases ending <;> rfl
  | some a =>
    rw [read]
    refine bind_congr fun understood => ?_
    obtain ⟨before, ending⟩ := understood
    cases ending <;> rfl

/-- Going on after switches does not depend on the switch if reading does not then. -/
theorem turnedOn_checking (r : Reader) (switches : List Switch)
    {next : Reader → Except Misuse Request}
    (hnext : ∀ r : Reader, next r.checking = (next r).map Request.checking) :
    r.checking.turnedOn switches next = (r.turnedOn switches next).map Request.checking := by
  rw [turnedOn, turnedOn, turnOn?_checking]
  cases r.turnOn? switches with
  | none => rfl
  | some r => exact hnext r

/-- **What is read of the words** does not depend on whether the switch was met. -/
theorem read_checking (r : Reader) : (words : List Word) →
    r.checking.read words = (r.read words).map Request.checking
  | [] => by
    rw [read, read, finish, finish]
    cases hleft : r.leftover.isEmpty <;> simp [checking, hleft, Except.map, Request.checking]
  | .argument text :: rest => by
    rw [read, read, addArgument_checking, read_checking _ rest]
  | .dashes :: rest => by
    rw [read, read, addDashes_checking, read_checking _ rest]
  | .unknown text :: rest => by
    rw [read, read, addLeftover_checking, read_checking _ rest]
  | .switch s byLetter attached :: rest => by
    rw [read_switch, read_switch]
    cases (match attached with
      | none => .ok ([], .bare s)
      | some a => unfold s byLetter a.afterEquals a.text :
        Except Misuse (List Switch × Ending)) with
    | error misuse => rfl
    | ok understood =>
      obtain ⟨before, ending⟩ := understood
      show r.checking.goOn rest (before, ending) =
        (r.goOn rest (before, ending)).map Request.checking
      cases ending with
      | valued last value =>
        refine turnedOn_checking r before fun r => ?_
        rw [give_checking, read_checking _ rest]
      | leftover text =>
        refine turnedOn_checking r before fun r => ?_
        rw [addLeftover_checking, read_checking _ rest]
      | bare last =>
        unfold goOn
        dsimp only
        split
        · split
          · next value rest =>
            refine turnedOn_checking r before fun r => ?_
            rw [give_checking, read_checking _ rest]
          · rfl
        · exact turnedOn_checking r _ fun r => read_checking r rest
termination_by words => words.length

end Reader

/-- **The switch may be put in front** of any command line. -/
theorem Request.ofWords_check (words : List String) :
    ofWords ("--check" :: words) = (ofWords words).map checking := by
  have hword : Word.understandAll ("--check" :: words) =
      (Word.understandAll words).map (.switch .check false none :: ·) := by
    rw [Word.understandAll]
    · cases Word.understandAll words <;> rfl
    · exact fun h => absurd h (by decide)
  rw [ofWords, hword, ofWords]
  cases Word.understandAll words with
  | error misuse => rfl
  | ok understood =>
    show Reader.read {} (.switch .check false none :: understood) = _
    rw [Reader.read_switch]
    exact Reader.read_checking {} understood

end Errata.CommandLine
