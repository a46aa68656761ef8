import Errata.Proofs.CommandLine.Planned

/-!
# Which settings can be read

The bytes of a file are settings if they are a document in which the tables of tools and of settings
can be looked up and every key that is there has a value of its kind. Otherwise there is a fault,
and the first one counts. The author of the settings is told of a malformed document and of a value
of the wrong kind. The other faults end the run: bytes that are no text, an integer beyond the
limit, and a value of another kind where a table should be.

* `TableIn`, `Reads`: where settings stand in a document, and what a key reads as.
* `ofDocument_eq_ok_iff`, **`ofBytes_eq_ok_iff`**: the settings that are read.
* `IsFaultOf`, **`ofBytes_eq_error_iff`**: the faults, and where each of them comes from.
* **`run_decides_settings`**: what is read, or how a run ends without settings.
* `not_ofBytes_complains`: a fault that the author is not told of.
-/

namespace Errata.Settings

open Toml (Table Value)

/-! ### Where settings stand -/

/-- Whether a value stands in a document where the table of settings should be. A table that is
missing reads as an empty one. -/
def TableIn (document : Table) (table : Value) : Prop :=
  match document.get? "tool" with
  | none => table = .table []
  | some (.table tools) => table = (Table.get? tools "errorgen").getD (.table [])
  | some _ => False

/-- Whether a value has a key as a member without having a value for it. -/
def Mentions : Value → Key → Prop
  | .text s, key => key.written.toList <:+: s.toList
  | .array items, key => .text key.written ∈ items
  | _, _ => False

/-- Whether members can be looked up in a value of a kind. -/
def Kind.HasMembers : Kind → Prop
  | table | text | array => True
  | _ => False

/-- What a key reads as: nothing unless the settings stand in a table. -/
def Reads (table : Value) (key : Key) (value : Option Value) : Prop :=
  match table with
  | .table entries => value = Table.get? entries key.written
  | table => (Kind.ofValue table).HasMembers ∧ ¬Mentions table key ∧ value = none

/-- The kind of the values of a key. -/
def Key.kind : Key → Kind
  | strictPlaceholders => .bool
  | runtimeModule => .text
  | outputDirectory => .text

/-- Part of a text is found by looking at every place in turn. -/
theorem occursIn_iff {part text : List Char} : occursIn part text = true ↔ part <:+: text := by
  induction text with
  | nil => simp [occursIn]
  | cons c text ih =>
    rw [occursIn, Bool.or_eq_true, ih, List.isPrefixOf_iff_prefix, List.infix_cons_iff]

/-- A string is found among values by its text. -/
theorem any_isText_iff {s : String} {items : List Value} :
    items.any (isText s) = true ↔ .text s ∈ items := by
  rw [List.any_eq_true]
  constructor
  · rintro ⟨item, hitem, htext⟩
    cases item with
    | text t =>
      obtain rfl : t = s := of_decide_eq_true htext
      exact hitem
    | _ => cases htext
  · intro hitem
    exact ⟨_, hitem, decide_eq_true rfl⟩

/-- The table of settings is looked up in two steps. -/
theorem member_bind_eq_ok_iff {document : Table} {table : Value} :
    (member "tool" (.table document) >>= member "errorgen") = .ok table ↔
      TableIn document table := by
  unfold TableIn
  simp only [member, bind, Except.bind]
  cases document.get? "tool" with
  | none => simp [Table.get?, eq_comm]
  | some tools => cases tools <;> simp [eq_comm]

/-- No table is looked up in what is no table. -/
theorem member_bind_eq_error_iff {document : Table} {fault : Fault} :
    (member "tool" (.table document) >>= member "errorgen") = .error fault ↔
      ∃ v, document.get? "tool" = some v ∧ Kind.ofValue v ≠ .table ∧
        fault = .notTable (.ofValue v) := by
  simp only [member, bind, Except.bind]
  cases document.get? "tool" with
  | none => simp
  | some tools => cases tools <;> simp [Kind.ofValue, eq_comm]

/-! ### The values of keys -/

section

variable {file : Path} {table : Value} {key : Key} {fault : Fault}

/-- A key is looked up in a string or in an array by asking whether it is a member. -/
theorem valueOf_of_hasMembers (hmembers : (Kind.ofValue table).HasMembers)
    (htable : Kind.ofValue table ≠ .table) :
    Mentions table key ∧ valueOf table key = .error (.notIndexed (.ofValue table)) ∨
      ¬Mentions table key ∧ valueOf table key = .ok none := by
  cases table with
  | text s =>
    by_cases h : occursIn key.written.toList s.toList = true
    · exact Or.inl ⟨occursIn_iff.mp h, by rw [valueOf, if_pos h]; rfl⟩
    · exact Or.inr ⟨occursIn_iff.not.mp h, by rw [valueOf, if_neg h]⟩
  | array items =>
    by_cases h : items.any (isText key.written) = true
    · exact Or.inl ⟨any_isText_iff.mp h, by rw [valueOf, if_pos h]; rfl⟩
    · exact Or.inr ⟨any_isText_iff.not.mp h, by rw [valueOf, if_neg h]⟩
  | table entries => exact absurd rfl htable
  | _ => exact absurd hmembers id

/-- No key is a member of a value without members. -/
theorem valueOf_of_not_hasMembers (h : ¬(Kind.ofValue table).HasMembers) :
    ¬Mentions table key ∧ valueOf table key = .error (.noMembers (.ofValue table)) := by
  cases table with
  | text s => exact absurd trivial h
  | array items => exact absurd trivial h
  | table entries => exact absurd trivial h
  | _ => exact ⟨id, rfl⟩

/-- What a key reads as in a value that is no table. -/
theorem reads_iff {value : Option Value} (htable : Kind.ofValue table ≠ .table) :
    Reads table key value ↔
      (Kind.ofValue table).HasMembers ∧ ¬Mentions table key ∧ value = none := by
  cases table with
  | table entries => exact absurd rfl htable
  | _ => exact Iff.rfl

/-- The value of a key is what it reads as. -/
theorem valueOf_eq_ok_iff {value : Option Value} :
    valueOf table key = .ok value ↔ Reads table key value := by
  by_cases htable : Kind.ofValue table = .table
  · cases table with
    | table entries =>
      exact ⟨fun h => (Except.ok.inj h).symm, fun h => congrArg Except.ok h.symm⟩
    | _ => cases htable
  · rw [reads_iff htable]
    by_cases hmembers : (Kind.ofValue table).HasMembers
    · rcases valueOf_of_hasMembers hmembers htable with ⟨hmentions, h⟩ | ⟨hnot, h⟩
      · rw [h]
        exact iff_of_false nofun fun hreads => hreads.2.1 hmentions
      · rw [h]
        exact ⟨fun heq => ⟨hmembers, hnot, (Except.ok.inj heq).symm⟩,
          fun hreads => congrArg Except.ok hreads.2.2.symm⟩
    · rw [(valueOf_of_not_hasMembers hmembers).2]
      exact iff_of_false nofun fun hreads => hmembers hreads.1

/-- A key that cannot be looked up. -/
theorem valueOf_eq_error_iff :
    valueOf table key = .error fault ↔
      ¬(Kind.ofValue table).HasMembers ∧ fault = .noMembers (.ofValue table) ∨
        Mentions table key ∧ fault = .notIndexed (.ofValue table) := by
  by_cases htable : Kind.ofValue table = .table
  · cases table with
    | table entries =>
      refine iff_of_false nofun ?_
      rintro (⟨hnone, -⟩ | ⟨hmentions, -⟩)
      · exact hnone trivial
      · exact hmentions
    | _ => cases htable
  · by_cases hmembers : (Kind.ofValue table).HasMembers
    · rcases valueOf_of_hasMembers hmembers htable with ⟨hmentions, h⟩ | ⟨hnot, h⟩
      · rw [h]
        exact ⟨fun heq => Or.inr ⟨hmentions, (Except.error.inj heq).symm⟩, fun hor => congrArg _
          (hor.resolve_left fun hnone => hnone.1 hmembers).2.symm⟩
      · rw [h]
        exact iff_of_false nofun (not_or.mpr ⟨fun hnone => hnone.1 hmembers, fun hm => hnot hm.1⟩)
    · obtain ⟨hnot, h⟩ := @valueOf_of_not_hasMembers table key hmembers
      rw [h]
      exact ⟨fun heq => Or.inl ⟨hmembers, (Except.error.inj heq).symm⟩, fun hor => congrArg _
        (hor.resolve_right fun hm => hnot hm.1).2.symm⟩

/-- What is wrong with a key: it cannot be looked up, or its value is of another kind. -/
inductive IsKeyFault (file : Path) (table : Value) (key : Key) : Fault → Prop
  /-- The value of the key cannot be looked up. -/
  | lookup {fault : Fault} (h : valueOf table key = .error fault) : IsKeyFault file table key fault
  /-- The value is of another kind. -/
  | mistyped {v : Value} (hreads : Reads table key (some v)) (hkind : Kind.ofValue v ≠ key.kind) :
    IsKeyFault file table key (.mistyped file key key.kind (.ofValue v))

/-- The truth value of a key is read if it is one, or not there. -/
theorem boolOf_eq_ok_iff {b : Option Bool} :
    boolOf file table key = .ok b ↔ Reads table key (b.map .bool) := by
  refine Outcome.bind_eq_ok_iff.trans ?_
  simp only [valueOf_eq_ok_iff]
  constructor
  · rintro ⟨value, hvalue, h⟩
    split at h
    · cases h
      exact hvalue
    · cases h
      exact hvalue
    · cases h
  · intro hvalue
    refine ⟨_, hvalue, ?_⟩
    cases b <;> rfl

/-- The string of a key is read if it is one, or not there. -/
theorem textOf_eq_ok_iff {t : Option String} :
    textOf file table key = .ok t ↔ Reads table key (t.map .text) := by
  refine Outcome.bind_eq_ok_iff.trans ?_
  simp only [valueOf_eq_ok_iff]
  constructor
  · rintro ⟨value, hvalue, h⟩
    split at h
    · cases h
      exact hvalue
    · cases h
      exact hvalue
    · cases h
  · intro hvalue
    refine ⟨_, hvalue, ?_⟩
    cases t <;> rfl

/-- A truth value is not read if there is something wrong with its key. -/
theorem boolOf_eq_error_iff (hkey : key.kind = .bool) :
    boolOf file table key = .error fault ↔ IsKeyFault file table key fault := by
  constructor
  · intro h
    cases hvalue : valueOf table key with
    | error f =>
      simp only [boolOf, hvalue, bind, Except.bind] at h
      cases h
      exact .lookup hvalue
    | ok value =>
      simp only [boolOf, hvalue, bind, Except.bind] at h
      rw [valueOf_eq_ok_iff] at hvalue
      cases value with
      | none => cases h
      | some v =>
        cases v with
        | bool b => cases h
        | _ =>
          cases h
          rw [← hkey]
          exact .mistyped hvalue (by rw [hkey]; exact nofun)
  · intro h
    cases h with
    | lookup h => simp only [boolOf, h, bind, Except.bind]
    | @mistyped v hreads hkind =>
      rw [← valueOf_eq_ok_iff] at hreads
      rw [hkey] at hkind ⊢
      simp only [boolOf, hreads, bind, Except.bind]
      cases v with
      | bool b => exact absurd rfl hkind
      | _ => rfl

/-- A string is not read if there is something wrong with its key. -/
theorem textOf_eq_error_iff (hkey : key.kind = .text) :
    textOf file table key = .error fault ↔ IsKeyFault file table key fault := by
  constructor
  · intro h
    cases hvalue : valueOf table key with
    | error f =>
      simp only [textOf, hvalue, bind, Except.bind] at h
      cases h
      exact .lookup hvalue
    | ok value =>
      simp only [textOf, hvalue, bind, Except.bind] at h
      rw [valueOf_eq_ok_iff] at hvalue
      cases value with
      | none => cases h
      | some v =>
        cases v with
        | text s => cases h
        | _ =>
          cases h
          rw [← hkey]
          exact .mistyped hvalue (by rw [hkey]; exact nofun)
  · intro h
    cases h with
    | lookup h => simp only [textOf, h, bind, Except.bind]
    | @mistyped v hreads hkind =>
      rw [← valueOf_eq_ok_iff] at hreads
      rw [hkey] at hkind ⊢
      simp only [textOf, hreads, bind, Except.bind]
      cases v with
      | text s => exact absurd rfl hkind
      | _ => rfl

end

/-! ### Documents -/

section

variable {file : Path} {document : Table} {table : Value} {fault : Fault}

/-- The settings in what should be the table of settings. -/
def inTable (file : Path) (table : Value) : Except Fault Settings := do
  let strict ← boolOf file table .strictPlaceholders
  let runtime ← textOf file table .runtimeModule
  let directory ← textOf file table .outputDirectory
  let defaults : Settings := {}
  return {
    strictPlaceholders := strict.getD defaults.strictPlaceholders
    runtimeModule := runtime.getD defaults.runtimeModule
    outputDirectory := directory.map fun d => file.parent / Path.ofString d
    file := some file }

/-- The settings in a document are those in its table of settings. -/
theorem ofDocument_eq (file : Path) (document : Table) :
    ofDocument file document =
      (member "tool" (.table document) >>= member "errorgen") >>= inTable file := by
  rw [ofDocument]
  cases member "tool" (.table document) <;> rfl

/-- Whether settings are those that the keys read as, or else the defaults. -/
def AreIn (file : Path) (table : Value) (settings : Settings) : Prop :=
  ∃ (strict : Option Bool) (runtime directory : Option String),
    Reads table .strictPlaceholders (strict.map .bool) ∧
    Reads table .runtimeModule (runtime.map .text) ∧
    Reads table .outputDirectory (directory.map .text) ∧
    settings =
      { strictPlaceholders := strict.getD true
        runtimeModule := runtime.getD "errorgen.runtime"
        outputDirectory := directory.map fun d => file.parent / Path.ofString d
        file := some file }

/-- **The settings in a table** are read if every key that is there has a value of its kind. -/
theorem inTable_eq_ok_iff {settings : Settings} :
    inTable file table = .ok settings ↔ AreIn file table settings := by
  unfold inTable AreIn
  simp only [bind, Outcome.bind_eq_ok_iff, boolOf_eq_ok_iff, textOf_eq_ok_iff]
  constructor
  · rintro ⟨strict, hstrict, runtime, hruntime, directory, hdirectory, h⟩
    cases h
    exact ⟨strict, runtime, directory, hstrict, hruntime, hdirectory, rfl⟩
  · rintro ⟨strict, runtime, directory, hstrict, hruntime, hdirectory, rfl⟩
    exact ⟨strict, hstrict, runtime, hruntime, directory, hdirectory, rfl⟩

/-- The place of a key in the order in which they are read. -/
def Key.index : Key → Nat
  | strictPlaceholders => 0
  | runtimeModule => 1
  | outputDirectory => 2

/-- Whether a key is not there or has a value of its kind. -/
def IsRight (table : Value) (key : Key) : Prop :=
  ∃ value, Reads table key value ∧ ∀ v ∈ value, Kind.ofValue v = key.kind

/-- A key with truth values is right if it reads as one or as nothing. -/
theorem isRight_bool_iff {key : Key} (hkey : key.kind = .bool) :
    IsRight table key ↔ ∃ b : Option Bool, Reads table key (b.map .bool) := by
  constructor
  · rintro ⟨value, hreads, hkind⟩
    cases value with
    | none => exact ⟨none, hreads⟩
    | some v =>
      have hv := hkind v rfl
      rw [hkey] at hv
      cases v with
      | bool b => exact ⟨some b, hreads⟩
      | _ => cases hv
  · rintro ⟨b, hreads⟩
    refine ⟨_, hreads, ?_⟩
    cases b with
    | none => exact nofun
    | some b =>
      rintro v ⟨⟩
      exact hkey.symm

/-- A key with strings is right if it reads as one or as nothing. -/
theorem isRight_text_iff {key : Key} (hkey : key.kind = .text) :
    IsRight table key ↔ ∃ t : Option String, Reads table key (t.map .text) := by
  constructor
  · rintro ⟨value, hreads, hkind⟩
    cases value with
    | none => exact ⟨none, hreads⟩
    | some v =>
      have hv := hkind v rfl
      rw [hkey] at hv
      cases v with
      | text t => exact ⟨some t, hreads⟩
      | _ => cases hv
  · rintro ⟨t, hreads⟩
    refine ⟨_, hreads, ?_⟩
    cases t with
    | none => exact nofun
    | some t =>
      rintro v ⟨⟩
      exact hkey.symm

/-- Where a key is a member that has no value, there is a first such key. The earlier ones read as
nothing. -/
theorem exists_first_mention {key : Key} (h : Mentions table key) :
    ∃ first, Mentions table first ∧ ∀ k : Key, k.index < first.index → IsRight table k := by
  have hleast : ∃ first, Mentions table first ∧
      ∀ k : Key, k.index < first.index → ¬Mentions table k := by
    induction hn : key.index using Nat.strongRecOn generalizing key with
    | ind n ih =>
      by_cases hearlier : ∃ k : Key, k.index < n ∧ Mentions table k
      · obtain ⟨k, hk, hmentions⟩ := hearlier
        exact ih k.index hk hmentions rfl
      · exact ⟨key, h, fun k hk hmentions => hearlier ⟨k, hn ▸ hk, hmentions⟩⟩
  obtain ⟨first, hfirst, hleast⟩ := hleast
  have hkind : (Kind.ofValue table).HasMembers ∧ Kind.ofValue table ≠ .table := by
    cases table with
    | text s => exact ⟨trivial, nofun⟩
    | array items => exact ⟨trivial, nofun⟩
    | _ => exact absurd h id
  refine ⟨first, hfirst, fun k hk => ?_⟩
  exact ⟨none, (reads_iff hkind.2).mpr ⟨hkind.1, hleast k hk, rfl⟩, nofun⟩

/-- One of two operations fails. -/
theorem bind_eq_error_iff {α β : Type} {x : Except Fault α} {f : α → Except Fault β} :
    x >>= f = .error fault ↔ x = .error fault ∨ ∃ a, x = .ok a ∧ f a = .error fault := by
  cases x <;> simp [bind, Except.bind]

/-- **The settings in a table** are not read if there is something wrong with a key. The first one
counts. -/
theorem inTable_eq_error_iff :
    inTable file table = .error fault ↔
      ∃ key, IsKeyFault file table key fault ∧
        ∀ k : Key, k.index < key.index → IsRight table k := by
  have hstrict : boolOf file table .strictPlaceholders = .error fault ↔
      IsKeyFault file table .strictPlaceholders fault := boolOf_eq_error_iff rfl
  have hruntime : textOf file table .runtimeModule = .error fault ↔
      IsKeyFault file table .runtimeModule fault := textOf_eq_error_iff rfl
  have hdirectory : textOf file table .outputDirectory = .error fault ↔
      IsKeyFault file table .outputDirectory fault := textOf_eq_error_iff rfl
  have hsteps : inTable file table = .error fault ↔
      IsKeyFault file table .strictPlaceholders fault ∨ IsRight table .strictPlaceholders ∧
        (IsKeyFault file table .runtimeModule fault ∨ IsRight table .runtimeModule ∧
          IsKeyFault file table .outputDirectory fault) := by
    have hright := @isRight_bool_iff table .strictPlaceholders rfl
    have hright' := @isRight_text_iff table .runtimeModule rfl
    rw [hright, hright']
    simp only [inTable, bind_eq_error_iff, boolOf_eq_ok_iff, textOf_eq_ok_iff, hstrict, hruntime,
      hdirectory, pure, Except.pure, reduceCtorEq, and_false, exists_false, or_false,
      exists_and_right]
  rw [hsteps]
  constructor
  · rintro (h | ⟨hfirst, h | ⟨hsecond, h⟩⟩)
    · exact ⟨_, h, fun k hk => absurd hk (Nat.not_lt_zero _)⟩
    · refine ⟨_, h, fun k hk => ?_⟩
      cases k with
      | strictPlaceholders => exact hfirst
      | runtimeModule => exact absurd hk (Nat.lt_irrefl _)
      | outputDirectory => exact absurd hk (by decide)
    · refine ⟨_, h, fun k hk => ?_⟩
      cases k with
      | strictPlaceholders => exact hfirst
      | runtimeModule => exact hsecond
      | outputDirectory => exact absurd hk (Nat.lt_irrefl _)
  · rintro ⟨key, h, hearlier⟩
    cases key with
    | strictPlaceholders => exact Or.inl h
    | runtimeModule => exact Or.inr ⟨hearlier .strictPlaceholders (by decide), Or.inl h⟩
    | outputDirectory =>
      exact Or.inr ⟨hearlier .strictPlaceholders (by decide),
        Or.inr ⟨hearlier .runtimeModule (by decide), h⟩⟩

end

/-! ### Files -/

section

variable {file : Path} {bytes : List UInt8}

/-- Whether bytes are those of a document. -/
def IsDocument (bytes : List UInt8) (document : Table) : Prop :=
  ∃ text, Bytes.decode bytes = .ok text ∧ Toml.read text = .ok document

/-- What can be wrong with the bytes of a file. -/
inductive IsFaultOf (file : Path) (bytes : List UInt8) : Fault → Prop
  /-- The bytes are no text. -/
  | undecodable {f : Bytes.Fault} (hbytes : Bytes.decode bytes = .error f) :
    IsFaultOf file bytes (.undecodable f)
  /-- The text breaks the rules for documents. -/
  | malformed {text : List Char} {p : Toml.Problem} (htext : Bytes.decode bytes = .ok text)
      (hread : Toml.read text = .error p) (hrules : p.fault.isMalformed = true) :
    IsFaultOf file bytes (.malformed file text p)
  /-- An integer in the text is beyond the limit. -/
  | beyondLimit {text : List Char} {p : Toml.Problem} (htext : Bytes.decode bytes = .ok text)
      (hread : Toml.read text = .error p) (hrules : p.fault.isMalformed = false) :
    IsFaultOf file bytes (.beyondLimit text p)
  /-- Where the table of tools should be is something else. -/
  | notTable {document : Table} {v : Value} (hdocument : IsDocument bytes document)
      (htools : document.get? "tool" = some v) (hkind : Kind.ofValue v ≠ .table) :
    IsFaultOf file bytes (.notTable (.ofValue v))
  /-- Where the table of settings should be is a value without members. -/
  | noMembers {document : Table} {table : Value} (hdocument : IsDocument bytes document)
      (htable : TableIn document table) (hkind : ¬(Kind.ofValue table).HasMembers) :
    IsFaultOf file bytes (.noMembers (.ofValue table))
  /-- Where the table of settings should be is a string or an array that has a key as a member. -/
  | notIndexed {document : Table} {table : Value} {key : Key}
      (hdocument : IsDocument bytes document) (htable : TableIn document table)
      (hmentions : Mentions table key) :
    IsFaultOf file bytes (.notIndexed (.ofValue table))
  /-- The table of settings has a value of another kind for a key. The earlier keys are right. -/
  | mistyped {document entries : Table} {key : Key} {v : Value}
      (hdocument : IsDocument bytes document) (htable : TableIn document (.table entries))
      (hvalue : entries.get? key.written = some v) (hkind : Kind.ofValue v ≠ key.kind)
      (hearlier : ∀ k : Key, k.index < key.index → ∀ w, entries.get? k.written = some w →
        Kind.ofValue w = k.kind) :
    IsFaultOf file bytes (.mistyped file key key.kind (.ofValue v))

/-- The settings in the bytes of a document. -/
theorem ofBytes_of_isDocument (file : Path) {document : Table} (h : IsDocument bytes document) :
    ofBytes file bytes = ofDocument file document := by
  obtain ⟨text, htext, hread⟩ := h
  simp only [ofBytes, htext, hread, Except.mapError, bind, Except.bind]

/-- **The settings in the bytes of a file**: they are a document, the tables can be looked up in it,
and every key that is there has a value of its kind. That is its setting; for a key that is not
there it is the default. -/
theorem ofBytes_eq_ok_iff {settings : Settings} :
    ofBytes file bytes = .ok settings ↔
      ∃ document table, IsDocument bytes document ∧ TableIn document table ∧
        AreIn file table settings := by
  have hdocuments : ∀ {document}, ofDocument file document = .ok settings ↔
      ∃ table, TableIn document table ∧ AreIn file table settings := by
    intro document
    rw [ofDocument_eq]
    refine Outcome.bind_eq_ok_iff.trans ?_
    simp only [member_bind_eq_ok_iff, inTable_eq_ok_iff]
  constructor
  · intro h
    obtain ⟨text, htext, h⟩ := Outcome.bind_eq_ok_iff.mp h
    rw [Outcome.mapError_eq_ok_iff] at htext
    split at h
    · next document hread =>
      obtain ⟨table, htable, hin⟩ := hdocuments.mp h
      exact ⟨document, table, ⟨text, htext, hread⟩, htable, hin⟩
    · cases h
  · rintro ⟨document, table, hdocument, htable, hin⟩
    rw [ofBytes_of_isDocument file hdocument]
    exact hdocuments.mpr ⟨table, htable, hin⟩

/-- What is wrong with a document, and what is wrong with a key in its table of settings. -/
theorem ofDocument_eq_error_iff {document : Table} {fault : Fault} :
    ofDocument file document = .error fault ↔
      (∃ v, document.get? "tool" = some v ∧ Kind.ofValue v ≠ .table ∧
        fault = .notTable (.ofValue v)) ∨
      ∃ table, TableIn document table ∧ ∃ key, IsKeyFault file table key fault ∧
        ∀ k : Key, k.index < key.index → IsRight table k := by
  rw [ofDocument_eq, bind_eq_error_iff, member_bind_eq_error_iff]
  simp only [member_bind_eq_ok_iff, inTable_eq_error_iff]

/-- **The faults in the bytes of a file**, and where each of them comes from. -/
theorem ofBytes_eq_error_iff {fault : Fault} :
    ofBytes file bytes = .error fault ↔ IsFaultOf file bytes fault := by
  constructor
  · intro h
    cases htext : Bytes.decode bytes with
    | error f =>
      simp only [ofBytes, htext, Except.mapError, bind, Except.bind] at h
      cases h
      exact .undecodable htext
    | ok text =>
      cases hread : Toml.read text with
      | error p =>
        simp only [ofBytes, htext, hread, Except.mapError, bind, Except.bind] at h
        cases h
        split
        · next hrules => exact .malformed htext hread hrules
        · next hrules => exact .beyondLimit htext hread (by simpa using hrules)
      | ok document =>
        have hdocument : IsDocument bytes document := ⟨text, htext, hread⟩
        rw [ofBytes_of_isDocument file hdocument, ofDocument_eq_error_iff] at h
        rcases h with ⟨v, htools, hkind, rfl⟩ | ⟨table, htable, key, hfault, hearlier⟩
        · exact .notTable hdocument htools hkind
        · cases hfault with
          | lookup hlookup =>
            rcases valueOf_eq_error_iff.mp hlookup with ⟨hkind, rfl⟩ | ⟨hmentions, rfl⟩
            · exact .noMembers hdocument htable hkind
            · exact .notIndexed hdocument htable hmentions
          | @mistyped v hreads hkind =>
            cases table with
            | table entries =>
              refine .mistyped hdocument htable hreads.symm hkind fun k hk w hw => ?_
              obtain ⟨value, hvalue, hright⟩ := hearlier k hk
              exact hright w (hvalue.trans hw)
            | _ => cases hreads.2.2
  · intro h
    cases h with
    | undecodable hbytes => simp only [ofBytes, hbytes, Except.mapError, bind, Except.bind]
    | malformed htext hread hrules =>
      simp only [ofBytes, htext, hread, hrules, Except.mapError, bind, Except.bind]
      rfl
    | beyondLimit htext hread hrules =>
      simp only [ofBytes, htext, hread, hrules, Except.mapError, bind, Except.bind]
      rfl
    | notTable hdocument htools hkind =>
      rw [ofBytes_of_isDocument file hdocument, ofDocument_eq_error_iff]
      exact Or.inl ⟨_, htools, hkind, rfl⟩
    | noMembers hdocument htable hkind =>
      rw [ofBytes_of_isDocument file hdocument, ofDocument_eq_error_iff]
      exact Or.inr ⟨_, htable, .strictPlaceholders,
        .lookup (valueOf_of_not_hasMembers hkind).2, fun k hk => absurd hk (Nat.not_lt_zero _)⟩
    | @notIndexed document table key hdocument htable hmentions =>
      rw [ofBytes_of_isDocument file hdocument, ofDocument_eq_error_iff]
      obtain ⟨first, hfirst, hearlier⟩ := exists_first_mention hmentions
      exact Or.inr ⟨_, htable, first, .lookup (valueOf_eq_error_iff.mpr (Or.inr ⟨hfirst, rfl⟩)),
        hearlier⟩
    | mistyped hdocument htable hvalue hkind hearlier =>
      rw [ofBytes_of_isDocument file hdocument, ofDocument_eq_error_iff]
      refine Or.inr ⟨_, htable, _, .mistyped hvalue.symm hkind, fun k hk => ?_⟩
      exact ⟨_, rfl, fun w hw => hearlier k hk w hw⟩

end

end Errata.Settings

/-! ### Runs -/

namespace Errata.CommandLine

variable {versions : Versions} {words : List String} {a : Arguments} {s : Session}

/-- How a run ends whose settings cannot be read: with a complaint and exit code 2 if the author is
to be told, and without an exit code otherwise. -/
theorem run_of_fault [Expression.Capacity]
    (hwords : Request.ofWords words = .ok (.work a)) (hversion : a.version = false)
    (hsources : a.sources ≠ []) (hmisused : a.isMisused = false) {fault : Settings.Fault}
    (hfault : s.settings = .error fault) :
    (run versions words : StateM Session _).run s =
      (endingWith fault, s.print "" (fault.complaint?.elim "" fun complaint =>
        "error: " ++ complaint ++ "\n")) := by
  rw [run, hwords]
  show (work versions a : StateM Session _).run s = _
  rw [work_eq hversion (List.isEmpty_eq_false_iff.mpr hsources) hmisused, StateT.run_bind,
    Session.run_load, hfault]
  rw [endingWith]
  cases hcomplaint : fault.complaint? with
  | none =>
    simp only [hcomplaint, bind, Option.elim_none, Session.print_empty]
    rfl
  | some complaint =>
    have hprints : (complain complaint : StateM Session _).run s = _ := prints_complain complaint s
    simp only [hcomplaint, bind]
    show (do return .ok (← complain complaint) : StateM Session (Except Interruption Nat)).run s = _
    rw [StateT.run_bind, hprints]
    rfl

/-- **Which settings are read from the bytes of a file, and what becomes of a run without them.**
Either the bytes are a document with tables where they should be and with values of their kinds, and
the settings are these values and the defaults; or there is one of the faults. For a malformed
document, and for a value of another kind, a run that works on sources complains and ends with exit
code 2. For every other fault it ends without an exit code, and nothing is written. -/
theorem run_decides_settings [Expression.Capacity] (file : Path) (bytes : List UInt8) :
    (∀ settings, Settings.ofBytes file bytes = .ok settings ↔
      ∃ document table, Settings.IsDocument bytes document ∧ Settings.TableIn document table ∧
        Settings.AreIn file table settings) ∧
    (∀ fault, Settings.ofBytes file bytes = .error fault ↔ Settings.IsFaultOf file bytes fault) ∧
    ∀ fault, Settings.ofBytes file bytes = .error fault →
      (fault.complaint?.isSome = true ↔
        (∃ key expected actual, fault = .mistyped file key expected actual) ∨
          ∃ document problem, fault = .malformed file document problem) ∧
      ∀ versions words a (s : Session), Request.ofWords words = .ok (.work a) →
        a.version = false → a.sources ≠ [] → a.isMisused = false →
        s.settings = Settings.ofBytes file bytes →
        (∀ complaint, fault.complaint? = some complaint →
          (run versions words : StateM Session _).run s =
            (Except.ok 2, s.print "" ("error: " ++ complaint ++ "\n"))) ∧
        (fault.complaint? = none →
          (run versions words : StateM Session _).run s =
            (Except.error (.settings fault), s)) := by
  refine ⟨fun settings => Settings.ofBytes_eq_ok_iff, fun fault => Settings.ofBytes_eq_error_iff,
    fun fault hfault => ⟨?_, ?_⟩⟩
  · rw [Settings.ofBytes_eq_error_iff] at hfault
    cases hfault <;> simp [Settings.Fault.complaint?]
  · intro versions words a s hwords hversion hsources hmisused hsettings
    have hrun := @run_of_fault versions _ _ _ _ hwords hversion hsources hmisused _
      (hsettings.trans hfault)
    rw [hrun, endingWith]
    constructor
    · intro complaint hcomplaint
      rw [hcomplaint]
      rfl
    · intro hcomplaint
      rw [hcomplaint]
      exact congrArg (Prod.mk _) (Session.print_empty s)

/-- A directory with a file of settings. -/
def settingsFile : Path :=
  { root := .slash, parts := ["pyproject.toml"] }

/-- A session in a directory with settings. -/
def sessionWith (document : String) : Session where
  tree := ⟨[(["pyproject.toml"], .file (Bytes.encode document.toList))]⟩

/-- The settings of such a session are those in its file. -/
theorem settings_sessionWith (document : String) :
    (sessionWith document).settings =
      Settings.ofBytes settingsFile (Bytes.encode document.toList) := by
  rfl

/-- What such a file is read as. -/
theorem isDocument_encode {text : String} {document : Toml.Table}
    (h : Toml.read text.toList = .ok document) :
    Settings.IsDocument (Bytes.encode text.toList) document :=
  ⟨text.toList, Bytes.decode_encode _, h⟩

/-- A string is no truth value, and the author is told so. -/
theorem run_decides_settings_mistyped :
    (run ⟨"3.11", "1.3.1"⟩ ["a.errors"] : StateM Session _).run
        (sessionWith "tool.errorgen.strict-placeholders = \"no\"\n") =
      (Except.ok 2, (sessionWith "tool.errorgen.strict-placeholders = \"no\"\n").print ""
        ("error: /pyproject.toml: [tool.errorgen] strict-placeholders must be a bool, got str" ++
          "\n")) := by
  have hread : Toml.read "tool.errorgen.strict-placeholders = \"no\"\n".toList =
      .ok [("tool", .table [("errorgen", .table [("strict-placeholders", .text "no")])])] := by
    with_unfolding_all rfl
  have hfault : Settings.ofBytes settingsFile
      (Bytes.encode "tool.errorgen.strict-placeholders = \"no\"\n".toList) =
        .error (.mistyped settingsFile .strictPlaceholders .bool .text) := by
    refine Settings.ofBytes_eq_error_iff.mpr ?_
    exact @Settings.IsFaultOf.mistyped _ _ _ _ .strictPlaceholders (.text "no")
      (isDocument_encode hread) rfl rfl (by decide) fun k hk => absurd hk (Nat.not_lt_zero _)
  have hcomplaint :
      (Settings.Fault.mistyped settingsFile .strictPlaceholders .bool .text).complaint? =
        some "/pyproject.toml: [tool.errorgen] strict-placeholders must be a bool, got str" := by
    decide +kernel
  obtain ⟨hcomplains, -⟩ := ((run_decides_settings settingsFile _).2.2 _ hfault).2
    ⟨"3.11", "1.3.1"⟩ ["a.errors"] { sources := ["a.errors"] } _ (by decide +kernel) rfl (by simp)
    rfl (settings_sessionWith _)
  exact hcomplains _ hcomplaint

/-- A number where the table of tools should be: the author is not told. -/
theorem not_ofBytes_complains :
    ¬∀ file bytes, (∃ settings, Settings.ofBytes file bytes = .ok settings) ∨
      ∃ fault, Settings.ofBytes file bytes = .error fault ∧ fault.complaint?.isSome = true := by
  have hread : Toml.read "tool = 3\n".toList = .ok [("tool", .integer 3)] := by
    with_unfolding_all rfl
  have hfault : Settings.ofBytes settingsFile (Bytes.encode "tool = 3\n".toList) =
      .error (.notTable .integer) :=
    Settings.ofBytes_eq_error_iff.mpr (.notTable (isDocument_encode hread) rfl (by decide))
  intro hall
  rcases hall settingsFile (Bytes.encode "tool = 3\n".toList) with ⟨settings, h⟩ | ⟨fault, h, htold⟩
  · rw [hfault] at h
    cases h
  · rw [hfault] at h
    cases h
    cases htold

end Errata.CommandLine
