import Errata.Expression.Literal
import Errata.Text.Quoted
import Mathlib.Tactic.IntervalCases
import Mathlib.Tactic.Ring

/-!
# Reading quoted text

The written form of a text is a string literal of the language that generated code is in. This file
reads such literals, by the rules of that language and not by those of `Quoted.encode`, and shows
that the written form is read as the text it was made from.

* `Quoted.escape?`: what a backslash and the characters behind it stand for.
* `Quoted.read?`: a string literal on one line, and the text behind it.
* **`read?_encode`**: the written form of a text, with anything but a quote behind it, is read as
  the text.
-/

namespace Errata.Quoted

open Expression.Literal (isHexDigit hexValue)

/-! ### Escapes -/

/-- The code point whose number is written by the first `count` characters, and the rest. -/
def number? (count : Nat) (s : List Char) : Option (Text × List Char) :=
  if count ≤ s.length ∧ (s.take count).all isHexDigit then
    (CodePoint.ofNat? (hexValue (s.take count))).map fun c => ([c], s.drop count)
  else none

/-- The character that a letter behind a backslash stands for. -/
def letter? : Char → Option Char
  | '\\' => some '\\'
  | '\'' => some '\''
  | '"' => some '"'
  | 'a' => some '\x07'
  | 'b' => some '\x08'
  | 'f' => some '\x0c'
  | 'n' => some '\n'
  | 'r' => some '\r'
  | 't' => some '\t'
  | 'v' => some '\x0b'
  | _ => none

/-- Whether the character is an octal digit. -/
def isOctalDigit (c : Char) : Bool :=
  '0' ≤ c && c ≤ '7'

/-- The number written by octal digits. -/
def octalValue (digits : List Char) : Nat :=
  digits.foldl (fun n c => 8 * n + (c.toNat - '0'.toNat)) 0

/-- What the characters behind a backslash stand for, and the rest. The end of a line stands for
nothing, a backslash that starts no escape for itself. Names of characters are not read. -/
def escape? : List Char → Option (Text × List Char)
  | [] => none
  | '\n' :: rest => some ([], rest)
  | 'x' :: rest => number? 2 rest
  | 'u' :: rest => number? 4 rest
  | 'U' :: rest => number? 8 rest
  | 'N' :: _ => none
  | c :: rest =>
    match letter? c with
    | some v => some ([.char v], rest)
    | none =>
      if isOctalDigit c then
        let digits := ((c :: rest).take 3).takeWhile isOctalDigit
        some ([.char (Char.ofNat (octalValue digits))], (c :: rest).drop digits.length)
      else some ([.char '\\', .char c], rest)

/-- Every escape takes a character. -/
theorem length_escape?_lt {s : List Char} {text : Text} {rest : List Char}
    (h : escape? s = some (text, rest)) : rest.length < s.length := by
  have hn : ∀ {count : Nat} {s : List Char}, number? count s = some (text, rest) →
      rest.length ≤ s.length := by
    intro count s h
    unfold number? at h
    split at h
    · obtain ⟨c, -, heq⟩ := Option.map_eq_some_iff.mp h
      obtain ⟨-, rfl⟩ := Prod.mk.inj heq
      simp
    · cases h
  unfold escape? at h
  split at h
  · cases h
  · cases h
    simp
  · simpa [Nat.lt_succ_iff] using hn h
  · simpa [Nat.lt_succ_iff] using hn h
  · simpa [Nat.lt_succ_iff] using hn h
  · cases h
  · next c rest _ _ _ _ _ =>
    split at h
    · cases h
      simp
    · split at h
      · next hc =>
        cases h
        have htaken : ((c :: rest).take 3).takeWhile isOctalDigit =
            c :: (rest.take 2).takeWhile isOctalDigit := by
          rw [List.take_succ_cons, List.takeWhile_cons_of_pos hc]
        rw [htaken, List.length_cons, List.drop_succ_cons, List.length_drop, List.length_cons]
        omega
      · cases h
        simp

/-! ### Literals -/

/-- The text of a string literal up to the closing quote, and what is behind that. -/
def body? (quote : Char) : List Char → Option (Text × List Char)
  | [] => none
  | c :: rest =>
    if c = quote then some ([], rest)
    else if c = '\\' then
      match h : escape? rest with
      | none => none
      | some (text, after) =>
        have := length_escape?_lt h
        (body? quote after).map fun (more, after) => (text ++ more, after)
    else if c = '\n' ∨ c = '\r' then none
    else (body? quote rest).map fun (more, after) => (.char c :: more, after)
termination_by s => s.length
decreasing_by all_goals simp <;> omega

/-- The text of a string literal without letters before it and with one quote at each end, and what
is behind it. -/
def read? : List Char → Option (Text × List Char)
  | quote :: rest =>
    if quote = '\'' ∨ quote = '"' then
      if [quote, quote].isPrefixOf rest then none else body? quote rest
    else none
  | [] => none

/-! ### Numbers in hexadecimal -/

/-- The digits of a number are digits. -/
theorem isHexDigit_digitChar {n : Nat} (h : n < 16) : isHexDigit (Nat.digitChar n) = true := by
  interval_cases n <;> decide

/-- A digit has the value it was made from. -/
theorem hexValue_digitChar {n : Nat} (h : n < 16) (acc : Nat) :
    16 * acc + (if (Nat.digitChar n).isDigit then (Nat.digitChar n).toNat - 48
      else (Nat.digitChar n).toNat % 32 + 9) = 16 * acc + n := by
  interval_cases n <;> rfl

/-- A number with one digit more. -/
theorem hexadecimal_succ (count n : Nat) :
    hexadecimal (count + 1) n = Nat.digitChar (n / 16 ^ count % 16) :: hexadecimal count n := by
  simp [hexadecimal, List.range_succ]

/-- A number has as many digits as asked for. -/
@[simp] theorem length_hexadecimal (count n : Nat) : (hexadecimal count n).length = count := by
  simp [hexadecimal]

/-- The digits of a number are digits. -/
theorem isHexDigit_hexadecimal (count n : Nat) : (hexadecimal count n).all isHexDigit = true := by
  simp only [hexadecimal, List.all_map, List.all_eq_true]
  exact fun i _ => isHexDigit_digitChar (Nat.mod_lt _ (by decide))

/-- The last digits of a number, behind other digits. -/
theorem foldl_hexadecimal (count n acc : Nat) :
    (hexadecimal count n).foldl
      (fun n c => 16 * n + (if c.isDigit then c.toNat - 48 else c.toNat % 32 + 9)) acc =
      acc * 16 ^ count + n % 16 ^ count := by
  induction count generalizing acc with
  | zero => simp [hexadecimal, Nat.mod_one]
  | succ count ih =>
    have hlt : n / 16 ^ count % 16 < 16 := Nat.mod_lt _ (by decide)
    rw [hexadecimal_succ, List.foldl_cons, hexValue_digitChar hlt, ih, Nat.pow_succ,
      Nat.mod_mul, Nat.add_mul]
    ring

/-- A number is read from its digits if these are enough. -/
theorem hexValue_hexadecimal {count n : Nat} (h : n < 16 ^ count) :
    hexValue (hexadecimal count n) = n := by
  unfold hexValue
  rw [foldl_hexadecimal, Nat.zero_mul, Nat.zero_add, Nat.mod_eq_of_lt h]

/-- The code point of a number is read from enough digits. -/
theorem number?_hexadecimal {count n : Nat} {c : CodePoint} (h : n < 16 ^ count)
    (hc : CodePoint.ofNat? n = some c) (rest : List Char) :
    number? count (hexadecimal count n ++ rest) = some ([c], rest) := by
  have htake : (hexadecimal count n ++ rest).take count = hexadecimal count n :=
    List.take_left' (length_hexadecimal count n)
  have hdrop : (hexadecimal count n ++ rest).drop count = rest :=
    List.drop_left' (length_hexadecimal count n)
  rw [number?, htake, hdrop, if_pos, hexValue_hexadecimal h, hc]
  · rfl
  · exact ⟨by simp, isHexDigit_hexadecimal count n⟩

/-- A code point is read from its number. -/
theorem escape?_numeric {n : Nat} {c : CodePoint} (hn : n < 0x110000)
    (hc : CodePoint.ofNat? n = some c) (rest : List Char) :
    ∃ s, numeric n ++ rest = '\\' :: s ∧ escape? s = some ([c], rest) := by
  unfold numeric
  split
  · exact ⟨_, rfl, number?_hexadecimal (by omega) hc rest⟩
  · split
    · exact ⟨_, rfl, number?_hexadecimal (by omega) hc rest⟩
    · exact ⟨_, rfl, number?_hexadecimal (by omega) hc rest⟩

/-! ### The round trip -/

/-- The number of a code point is its own. -/
theorem ofNat?_toNat (c : CodePoint) : c.toNat < 0x110000 ∧ CodePoint.ofNat? c.toNat = some c := by
  cases c with
  | char c =>
    have hvalid : c.toNat < 0xD800 ∨ 0xDFFF < c.toNat ∧ c.toNat < 0x110000 := c.valid
    have hlt : c.toNat < 0x110000 := by omega
    refine ⟨hlt, ?_⟩
    rw [CodePoint.toNat, CodePoint.ofNat?, dif_neg (by omega), if_pos hlt, Char.ofNat_toNat]
  | surrogate offset =>
    have hoffset := offset.isLt
    have hrange : 0xD800 ≤ 0xD800 + offset.val ∧ 0xD800 + offset.val < 0xE000 := by omega
    refine ⟨by rw [CodePoint.toNat]; omega, ?_⟩
    rw [CodePoint.toNat, CodePoint.ofNat?, dif_pos hrange]
    simp

/-- An escape in a literal. -/
theorem body?_escape {quote : Char} (hq : quote ≠ '\\') {s after : List Char} {text : Text}
    (h : escape? s = some (text, after)) :
    body? quote ('\\' :: s) =
      (body? quote after).map fun (more, after) => (text ++ more, after) := by
  rw [body?, if_neg (Ne.symm hq), if_pos rfl]
  split
  · next h' => simp [h] at h'
  · next h' =>
    rw [h] at h'
    cases h'
    rfl

/-- The written form of a code point is read as the code point. -/
theorem body?_encodeOne {quote : Char} (hq : quote = '\'' ∨ quote = '"') (c : CodePoint)
    (rest : List Char) :
    body? quote (encodeOne quote c ++ rest) =
      (body? quote rest).map fun (more, after) => (c :: more, after) := by
  have hbackslash : quote ≠ '\\' := by rcases hq with rfl | rfl <;> decide
  have hletter : ∀ {letter value : Char}, escape? (letter :: rest) = some ([.char value], rest) →
      body? quote ('\\' :: letter :: rest) =
        (body? quote rest).map fun (more, after) => (.char value :: more, after) :=
    fun h => body?_escape hbackslash h
  have hnumber : body? quote (numeric c.toNat ++ rest) =
      (body? quote rest).map fun (more, after) => (c :: more, after) := by
    obtain ⟨hlt, hc⟩ := ofNat?_toNat c
    obtain ⟨s, hs, hescape⟩ := escape?_numeric hlt hc rest
    rw [hs]
    exact body?_escape hbackslash hescape
  cases c with
  | surrogate offset => exact hnumber
  | char c =>
    simp only [encodeOne]
    split_ifs with hspecial hn hr ht hprintable
    · rcases hspecial with rfl | rfl
      · rcases hq with rfl | rfl <;> exact hletter rfl
      · exact hletter rfl
    · subst hn
      exact hletter rfl
    · subst hr
      exact hletter rfl
    · subst ht
      exact hletter rfl
    · rw [not_or] at hspecial
      rw [List.singleton_append, body?, if_neg hspecial.1, if_neg hspecial.2,
        if_neg (not_or.mpr ⟨hn, hr⟩)]
    · exact hnumber

/-- The written form of a text up to the closing quote is read as the text. -/
theorem body?_flatMap {quote : Char} (hq : quote = '\'' ∨ quote = '"') (text : Text)
    (rest : List Char) :
    body? quote (text.flatMap (encodeOne quote) ++ quote :: rest) = some (text, rest) := by
  induction text with
  | nil => simp [body?]
  | cons c text ih =>
    rw [List.flatMap_cons, List.append_assoc, body?_encodeOne hq, ih]
    rfl

/-- A text is written between quotes. -/
theorem delimiter_eq (text : Text) : delimiter text = '\'' ∨ delimiter text = '"' := by
  unfold delimiter
  split
  · exact Or.inr rfl
  · exact Or.inl rfl

/-- No code point is written with its delimiter first. -/
theorem head?_encodeOne {quote : Char} (hq : quote ≠ '\\') (c : CodePoint) (rest : List Char) :
    ∃ d, (encodeOne quote c ++ rest).head? = some d ∧ d ≠ quote := by
  have hnumber : ∀ n, ∃ d, (numeric n ++ rest).head? = some d ∧ d ≠ quote := by
    intro n
    refine ⟨'\\', ?_, hq.symm⟩
    unfold numeric
    split_ifs <;> rfl
  cases c with
  | surrogate offset => exact hnumber _
  | char c =>
    simp only [encodeOne]
    split_ifs with hspecial
    · exact ⟨'\\', rfl, hq.symm⟩
    · exact ⟨'\\', rfl, hq.symm⟩
    · exact ⟨'\\', rfl, hq.symm⟩
    · exact ⟨'\\', rfl, hq.symm⟩
    · exact ⟨c, rfl, fun h => hspecial (Or.inl h)⟩
    · exact hnumber _

/-- **The written form of a text is read as the text.** -/
theorem read?_encode (text : Text) {rest : List Char}
    (hrest : ∀ c ∈ rest.head?, c ≠ '\'' ∧ c ≠ '"') :
    read? (encode text ++ rest) = some (text, rest) := by
  have hq := delimiter_eq text
  generalize hd : delimiter text = quote at hq
  have hbackslash : quote ≠ '\\' := by rcases hq with rfl | rfl <;> decide
  have hopen : ¬ [quote, quote].isPrefixOf (text.flatMap (encodeOne quote) ++ quote :: rest) := by
    rw [List.isPrefixOf_iff_prefix]
    rintro ⟨tail, htail⟩
    cases text with
    | nil =>
      -- what is behind the literal would be a quote
      obtain ⟨-, rfl⟩ := List.cons.inj htail
      obtain ⟨hs, hd⟩ := hrest quote rfl
      exact hq.elim hs hd
    | cons c text =>
      obtain ⟨d, hd, hne⟩ := head?_encodeOne hbackslash c
        (text.flatMap (encodeOne quote) ++ quote :: rest)
      rw [← List.append_assoc, ← List.flatMap_cons, ← htail] at hd
      exact hne (Option.some.inj hd).symm
  rw [encode, hd]
  simp only [List.cons_append, List.append_assoc, List.nil_append, read?]
  rw [if_pos hq, if_neg hopen, body?_flatMap hq]

end Errata.Quoted
