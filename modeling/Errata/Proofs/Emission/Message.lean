import Errata.Emission.Class
import Errata.Message.Filling
import Errata.Proofs.Text.Quoted

/-!
# Reading emitted messages

The expression that is emitted for a message is a string literal, or a string literal on which
`format` is called. This file reads such expressions back.

* `Form`: the two forms, and `Form.read?`: the form of an expression.
* **`read?_message`**: the expression for a message has the template of the message, and the
  expressions of its arguments between the parentheses.
* `Form.evaluate`: what an expression of one of the forms amounts to when its arguments have given
  values.
-/

namespace Errata.Emission

/-! ### Forms -/

/-- The form of an expression for a message. -/
inductive Form where
  /-- A string literal for the text. -/
  | literal (text : Text)
  /-- A call of `format` on a string literal for the text, with what stands between the
  parentheses. -/
  | call (text : Text) (arguments : List Char)
deriving DecidableEq, Repr

/-- What stands between a string literal and the arguments of the call. -/
def callMark : List Char := ['.', 'f', 'o', 'r', 'm', 'a', 't', '(']

/-- The form of an expression. -/
def Form.read? (expression : List Char) : Option Form :=
  match Quoted.read? expression with
  | none => none
  | some (text, []) => some (literal text)
  | some (text, rest) =>
    if callMark.isPrefixOf rest ∧ rest.getLast? = some ')' then
      some (call text (rest.drop callMark.length).dropLast)
    else none

/-- What an expression amounts to if its arguments have the given values. -/
def Form.evaluate {α ε : Type} (values : List α) (misfit : Template.Misfit α → ε)
    (format : α → Option Template.Conversion → Text → Except ε Text) : Form → Except ε Text
  | literal text => .ok text
  | call text _ => Template.fill values misfit format text

/-! ### The expression for a message -/

/-- The form of the expression for a message. -/
def messageForm (m : Descriptor.Message) : Form :=
  if m.arguments.isEmpty && isPlain m.template then .literal m.template
  else .call m.template (", ".intercalate (m.arguments.map Descriptor.Argument.expression)).toList

/-- A call of `format` on a string literal is read as one. -/
theorem read?_call (text : Text) (arguments : List Char) :
    Form.read? (Quoted.encode text ++ (callMark ++ arguments ++ [')'])) =
      some (.call text arguments) := by
  have hquoted : Quoted.read? (Quoted.encode text ++ (callMark ++ arguments ++ [')'])) = _ :=
    Quoted.read?_encode text (by simp [callMark])
  have hrest : callMark ++ arguments ++ [')'] ≠ [] := by simp
  rw [Form.read?, hquoted]
  generalize hr : callMark ++ arguments ++ [')'] = rest at hrest
  cases rest with
  | nil => exact absurd rfl hrest
  | cons c rest =>
    have hfront : callMark.isPrefixOf (c :: rest) := by
      rw [← hr, List.append_assoc, List.isPrefixOf_iff_prefix]
      exact List.prefix_append _ _
    have hlast : (c :: rest).getLast? = some ')' := by simp [← hr]
    simp only
    rw [if_pos ⟨hfront, hlast⟩, ← hr, List.append_assoc, List.drop_left, List.dropLast_concat]

/-- **The expression for a message** is read as the message's template and arguments. -/
theorem read?_message (m : Descriptor.Message) :
    Form.read? (message m).toList = some (messageForm m) := by
  unfold message messageForm
  split
  · have hquoted : Quoted.read? (Quoted.encode m.template ++ []) = _ :=
      Quoted.read?_encode m.template (by simp)
    rw [List.append_nil] at hquoted
    simp [Text.quoted, Form.read?, hquoted]
  · have hcall := read?_call m.template
      (", ".intercalate (m.arguments.map Descriptor.Argument.expression)).toList
    rw [← hcall]
    simp [Text.quoted, callMark]

end Errata.Emission
