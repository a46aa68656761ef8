import Errata.Expression.Check
import Errata.Proofs.Expression.Token
import Errata.Proofs.Outcome

/-!
# What a match says about the tokens

The recogniser gives up at the first token that is a fault or a bracket left open. So a match says
that it met none: every token before its end can be read. This holds of the remembered matches, too,
and so it is kept by every attempt.

* `Reads`: the tokens from one place to another can be read.
* `Reader.IsSound`: what is remembered says the same.
* `Ensures`: attempts that keep the reader sound, and what they ensure of their result;
  `Ensures.bind` puts two of them together.
* **`attempt_ensures`**: a match of a pattern reads the tokens up to its end.
* **`isComplete_of_recognise`**: the tokens of an expression that is recognised can be read up to
  the end.
-/

namespace Errata.Expression

variable {α β : Type} {tokens : Array Token} {i j k : Nat}

/-! ### Tokens that are read -/

/-- The tokens from one place up to another can be read, as far as there are any. -/
structure Reads (tokens : Array Token) (i j : Nat) : Prop where
  /-- The second place is not before the first. -/
  le : i ≤ j
  /-- The tokens between them can be read. -/
  isReadable : ∀ k t, i ≤ k → k < j → tokens[k]? = some t → t.lexeme.isReadable = true

/-- No tokens are read. -/
theorem Reads.refl (tokens : Array Token) (i : Nat) : Reads tokens i i :=
  ⟨le_rfl, fun _ _ hi hj => absurd (lt_of_le_of_lt hi hj) (lt_irrefl _)⟩

/-- Tokens are read one after the other. -/
theorem Reads.trans (h : Reads tokens i j) (h' : Reads tokens j k) : Reads tokens i k := by
  refine ⟨h.le.trans h'.le, fun m t him hmk hm => ?_⟩
  rcases lt_or_ge m j with hmj | hjm
  · exact h.isReadable m t him hmj hm
  · exact h'.isReadable m t hjm hmk hm

/-- One token is read. -/
theorem Reads.one (h : ∀ t, tokens[i]? = some t → t.lexeme.isReadable = true) :
    Reads tokens i (i + 1) := by
  refine ⟨Nat.le_succ i, fun k t hi hj hk => ?_⟩
  obtain rfl : k = i := by omega
  exact h t hk

/-- A result that is a match reads the tokens up to its end. -/
def ReadsUp (tokens : Array Token) (i : Nat) (result : Option Match) : Prop :=
  ∀ m, result = some m → Reads tokens i m.stop

/-- No match reads no tokens. -/
theorem readsUp_none : ReadsUp tokens i none := nofun

/-- A match reads the tokens up to its end. -/
theorem readsUp_some {m : Match} (h : Reads tokens i m.stop) : ReadsUp tokens i (some m) := by
  rintro _ ⟨⟩
  exact h

/-! ### What attempts ensure -/

/-- What is remembered is sound if every remembered match reads the tokens up to its end. -/
def Reader.IsSound (tokens : Array Token) (r : Reader) : Prop :=
  ∀ entry ∈ r.remembered, ReadsUp tokens entry.1.2 entry.2

/-- An attempt ensures something of its result if that holds whenever it starts with a sound reader,
and the reader stays sound however the attempt ends. -/
def Ensures (tokens : Array Token) (x : Attempt α) (p : α → Prop) : Prop :=
  ∀ r : Reader, r.IsSound tokens →
    (x.run.run r).2.IsSound tokens ∧ ∀ a, (x.run.run r).1 = .ok a → p a

/-- A change of the reader that keeps it sound. -/
theorem ensures_modify {g : Reader → Reader}
    (hg : ∀ r : Reader, r.IsSound tokens → (g r).IsSound tokens) :
    Ensures tokens (modify g : Attempt PUnit) fun _ => True :=
  fun r hr => ⟨hg r hr, fun _ _ => trivial⟩

namespace Ensures

variable {x : Attempt α} {f : α → Attempt β} {p : α → Prop} {q : β → Prop}

/-- A value that is handed on. -/
theorem pure {a : α} (h : p a) : Ensures tokens (Pure.pure a : Attempt α) p := by
  refine fun r hr => ⟨hr, ?_⟩
  rintro _ ⟨⟩
  exact h

/-- An attempt that ends early. -/
theorem throw (halt : Halt) : Ensures tokens (MonadExcept.throw halt : Attempt α) p :=
  fun _ hr => ⟨hr, nofun⟩

/-- What is asked for may be less. -/
theorem mono {p' : α → Prop} (h : Ensures tokens x p) (hp : ∀ a, p a → p' a) :
    Ensures tokens x p' :=
  fun r hr => ⟨(h r hr).1, fun a ha => hp a ((h r hr).2 a ha)⟩

/-- Two attempts, one after the other. -/
theorem bind (hx : Ensures tokens x p) (hf : ∀ a, p a → Ensures tokens (f a) q) :
    Ensures tokens (x >>= f) q := by
  intro r hr
  obtain ⟨hsound, hmade⟩ := hx r hr
  rw [Outcome.run_bind]
  generalize x.run.run r = made at hsound hmade
  obtain ⟨e | a, r'⟩ := made
  · exact ⟨hsound, nofun⟩
  · exact hf a (hmade a rfl) r' hsound

/-- A result that is changed afterwards. -/
theorem map {g : α → β} (hx : Ensures tokens x p) (hg : ∀ a, p a → q (g a)) :
    Ensures tokens (x >>= fun a => Pure.pure (g a)) q :=
  hx.bind fun a ha => pure (hg a ha)

end Ensures

/-- Looking at a token ensures that it is readable, or that it is the end. -/
theorem look_ensures (tokens : Array Token) (i : Nat) :
    Ensures tokens (look tokens i) fun lexeme =>
      lexeme.isReadable = true ∧ lexeme = ((tokens[i]?).map Token.lexeme).getD .atEnd := by
  unfold look
  refine Ensures.bind (ensures_modify fun r hr => ?_) fun _ _ => ?_
  · exact hr
  cases tokens[i]? with
  | none => exact .pure ⟨rfl, rfl⟩
  | some t =>
    dsimp only
    split
    · exact .throw _
    · exact .throw _
    · exact .throw _
    · rename_i hfault hdeferred hunclosed
      refine .pure ⟨?_, rfl⟩
      generalize t.lexeme = lexeme at *
      cases lexeme <;> simp_all [Lexeme.isReadable]

/-- A token that was looked at can be read. -/
theorem reads_of_look {lexeme : Lexeme}
    (h : lexeme.isReadable = true ∧ lexeme = ((tokens[i]?).map Token.lexeme).getD .atEnd) :
    Reads tokens i (i + 1) := by
  refine .one fun t ht => ?_
  obtain ⟨hreadable, rfl⟩ := h
  simpa [ht] using hreadable

/-- A match of one token reads it. -/
theorem oneToken_ensures (p : Lexeme → Bool) :
    Ensures tokens (oneToken tokens i p) (ReadsUp tokens i) := by
  refine (look_ensures tokens i).map fun lexeme h => ?_
  split
  · exact readsUp_some (reads_of_look h)
  · exact readsUp_none

/-- A match of a number reads it. -/
theorem oneNumber_ensures : Ensures tokens (oneNumber tokens i) (ReadsUp tokens i) := by
  refine (look_ensures tokens i).bind fun lexeme h => ?_
  split
  · exact .pure (readsUp_some (reads_of_look h))
  · exact .throw _
  · exact .pure readsUp_none

/-- The number of strings side by side. -/
theorem length_stringsFrom (tokens : Array Token) (i : Nat) :
    (stringsFrom tokens i).length =
      (((tokens.toList.drop i).map Token.lexeme).takeWhile isString).length := by
  rw [stringsFrom, List.length_filterMap_eq_countP, List.countP_eq_length]
  intro lexeme hlexeme
  have hstring : isString lexeme = true := List.mem_takeWhile_imp hlexeme
  cases lexeme <;> simp_all [isString]

/-- Strings side by side can be read. -/
theorem reads_stringsFrom (tokens : Array Token) (i : Nat) :
    Reads tokens i (i + (stringsFrom tokens i).length) := by
  refine ⟨Nat.le_add_right i _, fun k t hik hk ht => ?_⟩
  rw [length_stringsFrom] at hk
  have hfront := List.takeWhile_prefix (l := (tokens.toList.drop i).map Token.lexeme) isString
  have hbound : k - i < (((tokens.toList.drop i).map Token.lexeme).takeWhile isString).length := by
    omega
  have hlexeme : t.lexeme ∈ ((tokens.toList.drop i).map Token.lexeme).takeWhile isString := by
    refine List.mem_of_getElem? (i := k - i) ?_
    rw [List.getElem?_eq_getElem hbound, hfront.getElem hbound, ← List.getElem?_eq_getElem]
    simp [Nat.add_sub_cancel' hik, ht]
  have hstring : isString t.lexeme = true := List.mem_takeWhile_imp hlexeme
  cases hl : t.lexeme <;> simp_all [isString, Lexeme.isReadable]

/-- A match of strings side by side reads them. -/
theorem allStrings_ensures : Ensures tokens (allStrings tokens i) (ReadsUp tokens i) := by
  have hlook : ∀ j, Ensures tokens (discard (look tokens j)) fun _ => True := fun j =>
    (look_ensures tokens j).map fun _ _ => trivial
  unfold allStrings
  dsimp only
  refine (hlook i).bind fun _ _ => ?_
  split
  · exact .pure readsUp_none
  refine (hlook _).bind fun _ _ => ?_
  split
  · exact .throw _
  · exact .pure (readsUp_some (reads_stringsFrom tokens i))

/-! ### Attempts -/

/-- What is remembered of a rule at a token is sound. -/
theorem Reader.IsSound.lookup {r : Reader} (h : r.IsSound tokens) {rule : Rule}
    {result : Option Match} (hresult : r.remembered.lookup (rule, i) = some result) :
    ReadsUp tokens i result := by
  obtain ⟨before, after, hsplit, -⟩ := List.lookup_eq_some_iff.mp hresult
  exact h ((rule, i), result) (by simp [hsplit])

/-- A match of a rule, remembered or not. -/
theorem remember_ensures {x : Attempt (Option Match)} (hx : Ensures tokens x (ReadsUp tokens i))
    (rule : Rule) :
    Ensures tokens
      (do
        match (← get).remembered.lookup (rule, i) with
        | some result => return result
        | none =>
          let result ← x
          if rule.isRemembered then
            modify fun s => { s with remembered := ((rule, i), result) :: s.remembered }
          return result)
      (ReadsUp tokens i) := by
  have hget : Ensures tokens (get : Attempt Reader) fun r => r.IsSound tokens := by
    refine fun r hr => ⟨hr, ?_⟩
    rintro _ ⟨⟩
    exact hr
  refine hget.bind fun r hr => ?_
  cases hlookup : r.remembered.lookup (rule, i) with
  | some result => exact .pure (hr.lookup hlookup)
  | none =>
    refine hx.bind fun result hresult => ?_
    dsimp only
    split
    · refine (ensures_modify fun r hr => ?_).bind fun _ _ => .pure hresult
      exact List.forall_mem_cons.mpr ⟨hresult, hr⟩
    · exact .pure hresult

/-- An attempt that goes on after another has matched or not. -/
theorem Ensures.ifMatch {x : Attempt (Option Match)} {f : Option Match → Attempt α} {p : α → Prop}
    (hx : Ensures tokens x (ReadsUp tokens i)) (hnone : Ensures tokens (f none) p)
    (hsome : ∀ m, Reads tokens i m.stop → Ensures tokens (f (some m)) p) :
    Ensures tokens (x >>= f) p := by
  refine hx.bind fun result hresult => ?_
  cases result with
  | none => exact hnone
  | some m => exact hsome m (hresult m rfl)

/-- **A match of a pattern reads the tokens up to its end.** -/
theorem attempt_ensures (tokens : Array Token) (fuel : Nat) (again : Bool) (i : Nat) (p : Pattern) :
    Ensures tokens (attempt tokens fuel again i p) (ReadsUp tokens i) := by
  induction fuel generalizing again i p with
  | zero => exact .pure readsUp_none
  | succ fuel ih =>
    -- what is matched behind a match reads the tokens from the start of that match on
    have hbehind : ∀ {m : Match} (q : Pattern), Reads tokens i m.stop →
        Ensures tokens (attempt tokens fuel again m.stop q) (ReadsUp tokens i) := fun q h =>
      (ih again _ q).mono fun _ hresult m' hm' => h.trans (hresult m' hm')
    cases p with
    | op text => exact oneToken_ensures _
    | word text => exact oneToken_ensures _
    | name => exact oneToken_ensures _
    | oneOf names => exact oneToken_ensures _
    | number => exact oneNumber_ensures
    | string => exact oneToken_ensures _
    | strings => exact allStrings_ensures
    | newline => exact oneToken_ensures _
    | atEnd => exact oneToken_ensures _
    | rule r => exact remember_ensures (ih again i r.pattern) r
    | seq patterns =>
      cases patterns with
      | nil => exact .pure (readsUp_some (.refl tokens i))
      | cons p rest =>
        refine (ih again i p).ifMatch (.pure readsUp_none) fun first hfirst => ?_
        exact (hbehind (.seq rest) hfirst).ifMatch (.pure readsUp_none) fun more hmore =>
          .pure (readsUp_some hmore)
    | choice patterns =>
      cases patterns with
      | nil => exact .pure readsUp_none
      | cons p rest =>
        exact (ih again i p).ifMatch (ih again i (.choice rest)) fun found hfound =>
          .pure (readsUp_some hfound)
    | optional p =>
      exact (ih again i p).ifMatch (.pure (readsUp_some (.refl tokens i))) fun found hfound =>
        .pure (readsUp_some hfound)
    | many p =>
      refine (ih again i p).ifMatch (.pure (readsUp_some (.refl tokens i))) fun first hfirst => ?_
      exact (hbehind (.many p) hfirst).ifMatch (.pure readsUp_none) fun more hmore =>
        .pure (readsUp_some hmore)
    | chain first next =>
      refine (ih again i first).ifMatch (.pure readsUp_none) fun start hstart => ?_
      exact (hbehind (.many next) hstart).ifMatch (.pure readsUp_none) fun more hmore =>
        .pure (readsUp_some hmore)
    | ahead p =>
      exact (ih again i p).ifMatch (.pure readsUp_none) fun _ _ =>
        .pure (readsUp_some (.refl tokens i))
    | notAhead p =>
      exact (ih again i p).ifMatch (.pure (readsUp_some (.refl tokens i))) fun _ _ =>
        .pure readsUp_none
    | «unless» names p =>
      refine (ih again i p).ifMatch (.pure readsUp_none) fun found hfound => ?_
      refine (look_ensures tokens i).bind fun lexeme _ => ?_
      split
      · exact .pure readsUp_none
      · exact .pure (readsUp_some hfound)
    | node kind p =>
      exact (ih again i p).ifMatch (.pure readsUp_none) fun found hfound =>
        .pure (readsUp_some hfound)
    | again p =>
      simp only [attempt]
      split
      · exact ih true i p
      · exact .pure readsUp_none
    | quiet p => exact ih false i p
    | holding kind p =>
      refine (ih again i p).map fun result hresult m hm => hresult m ?_
      exact (Option.filter_eq_some_iff.mp hm).1
    | complaint c p =>
      refine (ih again i p).ifMatch (.pure readsUp_none) fun found hfound => ?_
      dsimp only
      split
      · exact .throw _
      · exact .pure readsUp_none

/-! ### Whole expressions -/

/-- The tokens from a place on can be read up to the end. -/
def ReadsToEnd (tokens : Array Token) (i : Nat) : Prop :=
  ∃ j, Reads tokens i j ∧ ∀ t, tokens[j]? = some t → t.lexeme = .atEnd

/-- Tokens of which one is the end and those before it can be read are complete. -/
theorem isComplete_of_getElem? {l : List Token} (j : Nat)
    (hreadable : ∀ k t, k < j → l[k]? = some t → t.lexeme.isReadable = true)
    (hend : ∀ t, l[j]? = some t → t.lexeme = .atEnd) : IsComplete l := by
  induction l generalizing j with
  | nil => trivial
  | cons t l ih =>
    cases j with
    | zero => exact Or.inl (hend t rfl)
    | succ j =>
      refine Or.inr ⟨hreadable 0 t (Nat.succ_pos j) rfl, ih j (fun k u hk hu => ?_) hend⟩
      exact hreadable (k + 1) u (Nat.succ_lt_succ hk) hu

/-- A match of the end of the input is at the end. -/
theorem atEnd_ensures (fuel : Nat) (again : Bool) (i : Nat) :
    Ensures tokens (attempt tokens fuel again i .atEnd) fun result =>
      result.isSome → ReadsToEnd tokens i := by
  cases fuel with
  | zero => exact .pure nofun
  | succ fuel =>
    refine (look_ensures tokens i).map fun lexeme hlexeme => ?_
    obtain ⟨-, rfl⟩ := hlexeme
    split
    · rename_i hatEnd
      refine fun _ => ⟨i, .refl tokens i, fun t ht => ?_⟩
      simpa [ht] using hatEnd
    · exact nofun

/-- A match of patterns before the end of the input reads the tokens up to the end. -/
theorem seq_atEnd_ensures (fuel : Nat) (again : Bool) (i : Nat) (ps : List Pattern) :
    Ensures tokens (attempt tokens fuel again i (.seq (ps ++ [.atEnd]))) fun result =>
      result.isSome → ReadsToEnd tokens i := by
  induction ps generalizing fuel i with
  | nil =>
    cases fuel with
    | zero => exact .pure nofun
    | succ fuel =>
      refine (atEnd_ensures fuel again i).bind fun result hresult => ?_
      cases result with
      | none => exact .pure nofun
      | some first =>
        refine (attempt_ensures tokens fuel again first.stop (.seq [])).bind fun _ _ => ?_
        split
        · exact .pure fun _ => hresult rfl
        · exact .pure nofun
  | cons p ps ih =>
    cases fuel with
    | zero => exact .pure nofun
    | succ fuel =>
      refine (attempt_ensures tokens fuel again i p).ifMatch (.pure nofun) fun first hfirst => ?_
      refine (ih fuel first.stop).bind fun result hresult => ?_
      cases result with
      | none => exact .pure nofun
      | some more =>
        obtain ⟨j, hreads, hend⟩ := hresult rfl
        exact .pure fun _ => ⟨j, hfirst.trans hreads, hend⟩

/-- A match of a whole input reads the tokens up to the end. -/
theorem finish_ensures {again : Bool} {m : Match} {r : Reader}
    (h : finish tokens again {} = (.ok (some m), r)) : ReadsToEnd tokens 0 := by
  obtain ⟨fuel, hfuel⟩ : ∃ fuel, depthBound tokens.size = fuel + 1 :=
    ⟨200 * (tokens.size + 2) - 1, by unfold depthBound; omega⟩
  -- nothing is remembered at first, so the pattern of the rule is tried
  have hrule : finish tokens again {} = (attempt tokens fuel again 0 Rule.input.pattern >>=
      fun result => pure result).run.run {} := by
    rw [finish, hfuel]
    rfl
  have hinput : Ensures tokens
      (attempt tokens fuel again 0 Rule.input.pattern >>= fun result => pure result)
      fun result => result.isSome = true → ReadsToEnd tokens 0 :=
    (seq_atEnd_ensures fuel again 0 [.rule .expressions, .many .newline]).bind
      fun _ hresult => .pure hresult
  rw [hrule] at h
  exact (hinput {} nofun).2 (some m) (congrArg Prod.fst h) rfl

/-- **The tokens of an expression that is recognised** can be read up to the end. -/
theorem isComplete_of_recognise {l : List Token} {nodes : List Node}
    (h : recognise l.toArray = .ok nodes) : IsComplete l := by
  unfold recognise at h
  split at h
  · cases h
  · cases h
  · rename_i m _ hfinish
    obtain ⟨j, hreads, hend⟩ := finish_ensures hfinish
    refine isComplete_of_getElem? j (fun k t hk ht => ?_) fun t ht => hend t (by simpa using ht)
    exact hreads.isReadable k t (Nat.zero_le k) hk (by simpa using ht)
  · dsimp only at h
    split at h <;> cases h

end Errata.Expression
