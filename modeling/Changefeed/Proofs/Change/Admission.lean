import Mathlib.Data.List.Forall2
import Changefeed.Proofs.Change.Assembly
import Changefeed.Proofs.Text.Decimal

/-!
# Which log entries become changes

Four things are asked of a log entry: that its table is declared, that its kind
is known, that its images are those of its kind, and that they report declared
columns only. `Admitted` says so without a word on how or in which order it is
found out, and `Assembled` says what the change is then. Every entry comes out
in one of four ways (`Verdict`): as the change, refused because its table is
not declared, whatever else may be wrong with it, refused as malformed, or, if
what it gives for its kind is a number too long to be written or holds one,
with the fault of that.

An image is absent or it is there; nothing that it reports, be it null, zero,
empty or the mark of an unreported column itself, makes it less so.
-/

namespace Changefeed

/-! ## The kind -/

namespace ChangeKind

/-- The code letter of a kind: a row is created, updated or deleted. -/
def letter : ChangeKind → String
  | insert => "c"
  | update => "u"
  | delete => "d"

/-- A text is the word or the letter of a kind, whatever its case and the blanks around it. -/
def Spelled (t : Text) (k : ChangeKind) : Prop :=
  ∃ s : String, t = s ∧
    (Text.lowered (Text.trim s) = k.word ∨ Text.lowered (Text.trim s) = k.letter)

/-- A value names a kind: it is the kind, or it has a text, and the text spells it. -/
def Named (v : Value) (k : ChangeKind) : Prop :=
  v = .mark (.kind k) ∨ v.isWritable = true ∧ Spelled v.asText k

theorem ofWord?_eq_some_iff {w : String} {k : ChangeKind} :
    ofWord? w = some k ↔ w = k.word ∨ w = k.letter := by
  constructor
  · intro h
    unfold ofWord? at h
    split at h
    · cases h
      assumption
    · split at h
      · cases h
        assumption
      · split at h
        · cases h
          assumption
        · cases h
  · cases k <;> rintro (rfl | rfl) <;> rfl

theorem ofText?_eq_some_iff {t : Text} {k : ChangeKind} : ofText? t = some k ↔ Spelled t k := by
  unfold ofText?
  rw [Option.bind_eq_some_iff]
  simp only [Text.plain?_eq_some_iff, ofWord?_eq_some_iff]
  rfl

/-- The text of a kind that stands as a mark is neither word nor letter. -/
theorem not_spelled_mark (k k' : ChangeKind) :
    ¬Spelled (Data.mark (.kind k) : Value).asText k' := by
  show ¬Spelled (s!"Operation.{k.name}" : String) k'
  rw [← ofText?_eq_some_iff, ofText?, Text.plain?_ofString]
  cases k <;> cases k' <;> decide +kernel

theorem named_mark_iff {k k' : ChangeKind} : Named (.mark (.kind k)) k' ↔ k' = k := by
  constructor
  · rintro (h | ⟨_, h⟩)
    · cases h
      rfl
    · exact absurd h (not_spelled_mark k k')
  · rintro rfl
    exact .inl rfl

/-- Any other value is read by its text, if it has one. -/
theorem ofValue_of_text {v : Value} (h : ∀ k, v ≠ .mark (.kind k)) (hw : v.isWritable = true) :
    ofValue v = (ofText? v.asText).elim (.error (.malformed (.unknownKind v))) .ok := by
  unfold ofValue
  split
  · rename_i k
    exact absurd rfl (h k)
  · rw [hw, if_neg (by simp)]
    cases ofText? v.asText <;> rfl

/-- A value without a text is not read. -/
theorem ofValue_of_not_writable {v : Value} (hw : v.isWritable = false) :
    ofValue v = .error (.argument .longNumber) := by
  unfold ofValue
  split
  · cases hw
  · rw [hw]
    rfl

theorem named_of_text_iff {v : Value} (h : ∀ k, v ≠ .mark (.kind k)) (hw : v.isWritable = true)
    {k : ChangeKind} : Named v k ↔ ofText? v.asText = some k := by
  rw [ofText?_eq_some_iff]
  constructor
  · rintro (hk | ⟨_, hk⟩)
    · exact absurd hk (h k)
    · exact hk
  · intro hk
    exact .inr ⟨hw, hk⟩

/-- What has a name is a kind, or has a text. -/
theorem Named.isWritable {v : Value} {k : ChangeKind} (h : Named v k) : v.isWritable = true := by
  rcases h with rfl | ⟨hw, _⟩
  · rfl
  · exact hw

/-- What can come of reading a value as a kind. -/
inductive Reads (v : Value) : Except Fault ChangeKind → Prop
  | named {k : ChangeKind} : (∀ k', Named v k' ↔ k' = k) → Reads v (.ok k)
  | unknown : v.isWritable = true → (∀ k, ¬Named v k) →
      Reads v (.error (.malformed (.unknownKind v)))
  | unwritable : v.isWritable = false → Reads v (.error (.argument .longNumber))

/-- **A value is read as the kind that it names**, and is malformed if it names none; but if it has
no text, that is the fault. -/
theorem reads_ofValue (v : Value) : Reads v (ofValue v) := by
  by_cases hmark : ∃ k, v = .mark (.kind k)
  · obtain ⟨k, rfl⟩ := hmark
    exact .named fun k' => named_mark_iff
  have htext : ∀ k, v ≠ .mark (.kind k) := not_exists.1 hmark
  cases hw : v.isWritable with
  | false =>
    rw [ofValue_of_not_writable hw]
    exact .unwritable hw
  | true =>
    rw [ofValue_of_text htext hw]
    cases hword : ofText? v.asText with
    | some k =>
      refine .named fun k' => ?_
      rw [named_of_text_iff htext hw, hword, Option.some_inj, eq_comm]
    | none =>
      refine .unknown hw fun k h => ?_
      rw [named_of_text_iff htext hw, hword] at h
      cases h

theorem ofValue_eq_ok_iff {v : Value} {k : ChangeKind} : ofValue v = .ok k ↔ Named v k := by
  have hreads := reads_ofValue v
  generalize ofValue v = r at hreads
  cases hreads with
  | named h => rw [h, Except.ok.injEq, eq_comm]
  | unknown _ hnone => exact ⟨nofun, fun h => absurd h (hnone k)⟩
  | unwritable hw => exact ⟨nofun, fun h => absurd h.isWritable (by simp [hw])⟩

theorem ofValue_eq_error_iff {v : Value} (hw : v.isWritable = true) {f : Fault} :
    ofValue v = .error f ↔ (∀ k, ¬Named v k) ∧ f = .malformed (.unknownKind v) := by
  have hreads := reads_ofValue v
  generalize ofValue v = r at hreads
  cases hreads with
  | named h => exact ⟨nofun, fun hf => absurd ((h _).2 rfl) (hf.1 _)⟩
  | unknown _ hnone =>
    rw [Except.error.injEq, eq_comm]
    exact ⟨fun h => ⟨hnone, h⟩, fun h => h.2⟩
  | unwritable hw' => cases hw.symm.trans hw'

/-- The images that a change of a kind has, and no others. -/
inductive Imaged : ChangeKind → Option Image → Option Image → Prop
  | insert (after : Image) : Imaged .insert none (some after)
  | update (before after : Image) : Imaged .update (some before) (some after)
  | delete (before : Image) : Imaged .delete (some before) none

end ChangeKind

namespace LogEntry

/-! ## What is asked, and what is given -/

/-- An entry can be assembled: by these columns of its table, and as this kind of change. -/
structure Admitted (catalog : Catalog) (e : LogEntry) (columns : List Text) (kind : ChangeKind) :
    Prop where
  table : catalog.columns? (.text e.table) = some columns
  named : ChangeKind.Named e.kind kind
  images : ChangeKind.Imaged kind e.before e.after
  declared : ∀ side, ∀ image ∈ e.image side, ∀ name ∈ image.keys, name ∈ columns

/-- What an image says of a column: its value, or that it is missing because it was not reported. -/
def Says (image : Image) (name : Text) (v : Value) : Prop :=
  (name, v) ∈ image.toList ∨ name ∉ image.keys ∧ v = .mark .missing

/-- A side of a change beside a side of its entry: for an image, a value for each column in turn. -/
abbrev Aligned (columns : List Text) : Option Image → Option (List Value) → Prop :=
  Option.Rel fun image values => List.Forall₂ (Says image) columns values

/-- The change that an entry becomes. -/
structure Assembled (e : LogEntry) (columns : List Text) (kind : ChangeKind) (c : Change) :
    Prop where
  table : c.table = e.table
  position : c.position = e.position
  before : Aligned columns e.before c.before
  after : Aligned columns e.after c.after
  ofKind : c.kind = kind
  inOrder : c.columns = columns

/-! ## Images -/

variable {catalog : Catalog} {e : LogEntry} {columns : List Text} {kind : ChangeKind}
  {image : Image} {c : Change}

theorem imageFlaw?_eq_none_iff :
    e.imageFlaw? kind = none ↔ ChangeKind.Imaged kind e.before e.after := by
  unfold imageFlaw?
  constructor
  · intro h
    cases kind <;> cases hb : e.before <;> cases ha : e.after <;>
      simp [ChangeKind.hasBefore, ChangeKind.hasAfter, hb, ha] at h
    · exact .insert _
    · exact .update _ _
    · exact .delete _
  · intro h
    generalize e.before = before, e.after = after at h
    cases h <;> rfl

theorem says_iff {name : Text} {v : Value} :
    Says image name v ↔ v = (image.get? name).getD (.mark .missing) := by
  unfold Says
  rw [← Keyed.get?_eq_some_iff, ← Keyed.get?_eq_none_iff]
  cases image.get? name with
  | none => simp
  | some w => simp [eq_comm]

/-- The values that an image has for the columns, one after the other, are those that it is aligned
to. -/
theorem forall₂_says_iff {values : List Value} :
    List.Forall₂ (Says image) columns values ↔ values = align columns image := by
  induction columns generalizing values with
  | nil => cases values <;> simp [align]
  | cons name rest ih =>
    cases values with
    | nil => simp [align]
    | cons v values =>
      rw [List.forall₂_cons, says_iff, ih]
      exact List.cons.injEq .. ▸ Iff.rfl

theorem aligned_iff {i : Option Image} {values : Option (List Value)} :
    Aligned columns i values ↔ values = i.map (align columns) := by
  cases i with
  | none => cases values <;> simp
  | some image => cases values <;> simp [forall₂_says_iff]

/-- What an entry is assembled to is determined. -/
theorem assembled_iff : Assembled e columns kind c ↔
    c = ⟨e.table, kind, e.position, columns, (e.image .before).map (align columns),
      (e.image .after).map (align columns)⟩ := by
  constructor
  · intro h
    obtain ⟨table, kind', position, columns', before, after⟩ := c
    obtain ⟨htable, hposition, hbefore, hafter, hkind, hcolumns⟩ := h
    simp only at htable hposition hbefore hafter hkind hcolumns
    rw [htable, hposition, hkind, hcolumns, aligned_iff.1 hbefore, aligned_iff.1 hafter]
    rfl
  · rintro rfl
    exact ⟨rfl, rfl, aligned_iff.2 rfl, aligned_iff.2 rfl, rfl, rfl⟩

/-! ## The verdict -/

theorem columns_eq_ok_iff {table : Text} :
    catalog.columns table = .ok columns ↔ catalog.columns? (.text table) = some columns := by
  unfold Catalog.columns
  cases catalog.columns? (.text table) <;> simp

theorem Admitted.assemble (h : Admitted catalog e columns kind) :
    ∃ c, e.assemble catalog = .ok c ∧ Assembled e columns kind c :=
  ⟨_, assemble_of_declared (columns_eq_ok_iff.2 h.table) (ChangeKind.ofValue_eq_ok_iff.2 h.named)
    (imageFlaw?_eq_none_iff.2 h.images)
    (fun side image hi => undeclared_eq_nil_iff.2 (h.declared side image hi)), assembled_iff.2 rfl⟩

/-- What can come of an entry. -/
inductive Verdict (catalog : Catalog) (e : LogEntry) : Except Fault Change → Prop
  | admitted {columns : List Text} {kind : ChangeKind} {c : Change} :
      Admitted catalog e columns kind → Assembled e columns kind c → Verdict catalog e (.ok c)
  | unknown : catalog.columns? (.text e.table) = none →
      Verdict catalog e (.error (.unknownTable e.table))
  | malformed {columns : List Text} {cause : ChangeCause} :
      catalog.columns? (.text e.table) = some columns → e.kind.isWritable = true →
      (∀ kind, ¬Admitted catalog e columns kind) → Verdict catalog e (.error (.malformed cause))
  | unwritable {columns : List Text} : catalog.columns? (.text e.table) = some columns →
      e.kind.isWritable = false → Verdict catalog e (.error (.argument .longNumber))

/-- A side of an entry is aligned if it reports declared columns only, and else malformed. -/
theorem alignSide_cases (e : LogEntry) (columns : List Text) (side : Side) :
    (∃ values, e.alignSide columns side = .ok values ∧
        ∀ image ∈ e.image side, ∀ name ∈ image.keys, name ∈ columns) ∨
      ∃ cause, e.alignSide columns side = .error (.malformed cause) := by
  cases hrun : e.alignSide columns side with
  | ok values =>
    have hdeclared := (alignSide_ok hrun).2
    exact .inl ⟨values, rfl, fun image hi => undeclared_eq_nil_iff.1 (hdeclared image hi)⟩
  | error f =>
    refine .inr ?_
    unfold alignSide at hrun
    split at hrun
    · cases hrun
    · split at hrun
      · cases hrun
      · cases hrun
        exact ⟨_, rfl⟩

/-- With its table declared and its kind known, an entry that cannot be assembled is malformed. -/
theorem assemble_malformed (htable : catalog.columns? (.text e.table) = some columns)
    (hread : ChangeKind.ofValue e.kind = .ok kind) (hnot : ¬Admitted catalog e columns kind) :
    ∃ cause, e.assemble catalog = .error (.malformed cause) := by
  unfold assemble
  rw [columns_eq_ok_iff.2 htable, hread]
  dsimp only [Bind.bind, Except.bind]
  cases hflaw : e.imageFlaw? kind with
  | some cause => exact ⟨cause, rfl⟩
  | none =>
    rcases alignSide_cases e columns .before with ⟨before, hb, hbefore⟩ | ⟨cause, hb⟩
    · rcases alignSide_cases e columns .after with ⟨after, ha, hafter⟩ | ⟨cause, ha⟩
      · -- nothing was found, so there was nothing to be found
        refine absurd ⟨htable, ChangeKind.ofValue_eq_ok_iff.1 hread,
          imageFlaw?_eq_none_iff.1 hflaw, fun side => ?_⟩ hnot
        cases side with
        | before => exact hbefore
        | after => exact hafter
      · rw [hb, ha]
        exact ⟨cause, rfl⟩
    · rw [hb]
      exact ⟨cause, rfl⟩

/-- With its table declared, an entry whose kind cannot be read is refused for its kind. -/
theorem assemble_of_kind_error {f : Fault} (htable : catalog.columns? (.text e.table) = some columns)
    (hread : ChangeKind.ofValue e.kind = .error f) : e.assemble catalog = .error f := by
  unfold assemble
  rw [columns_eq_ok_iff.2 htable, hread]
  rfl

/-- The change that an entry says is the one that it becomes. -/
theorem Assembled.assemble (hc : Assembled e columns kind c)
    (h : Admitted catalog e columns kind) : e.assemble catalog = .ok c := by
  obtain ⟨c', hrun, hc'⟩ := h.assemble
  rw [hrun, assembled_iff.1 hc, assembled_iff.1 hc']

/-- **Every entry** comes out in one of the four ways. -/
theorem assemble_verdict (catalog : Catalog) (e : LogEntry) :
    Verdict catalog e (e.assemble catalog) := by
  cases htable : catalog.columns? (.text e.table) with
  | none =>
    have hrun : e.assemble catalog = .error (.unknownTable e.table) := by
      unfold assemble Catalog.columns
      rw [htable]
      rfl
    rw [hrun]
    exact .unknown htable
  | some columns =>
    have hreads := ChangeKind.reads_ofValue e.kind
    cases hread : ChangeKind.ofValue e.kind with
    | error f =>
      rw [hread] at hreads
      rw [assemble_of_kind_error htable hread]
      cases hreads with
      | unknown hw hnone => exact .malformed htable hw fun kind h => hnone kind h.named
      | unwritable hw => exact .unwritable htable hw
    | ok kind =>
      have hnamed := ChangeKind.ofValue_eq_ok_iff.1 hread
      by_cases h : Admitted catalog e columns kind
      · obtain ⟨c, hrun, hc⟩ := h.assemble
        rw [hrun]
        exact .admitted h hc
      · obtain ⟨cause, hrun⟩ := assemble_malformed htable hread h
        rw [hrun]
        refine .malformed htable hnamed.isWritable fun kind' h' => h ?_
        -- the entry names one kind only
        cases (ChangeKind.ofValue_eq_ok_iff.2 h'.named).symm.trans hread
        exact h'

/-- **An entry is assembled exactly if it is admitted, and as what it says.** By any catalog, and
so by each that declarations can lead to, an entry becomes a change exactly if its table is
declared, its kind is known, its images are those of its kind and all their columns are declared;
the change has then the table and position of the entry, the kind that it names, the columns of its
table, and for each image a value beside each column: the image's own, or the mark of an
unreported one. The table is reported as unknown exactly if it is, whatever else is wrong. Of all
other entries those are refused as malformed whose kind has a text. A kind given by a value in which
a whole number has too many digits has none, and that is the fault then. -/
theorem assemble_iff_admitted (catalog : Catalog) (e : LogEntry) :
    ((∃ c, e.assemble catalog = .ok c) ↔ ∃ columns kind, Admitted catalog e columns kind) ∧
    (∀ c, e.assemble catalog = .ok c ↔
      ∃ columns kind, Admitted catalog e columns kind ∧ Assembled e columns kind c) ∧
    (e.assemble catalog = .error (.unknownTable e.table) ↔
      catalog.columns? (.text e.table) = none) ∧
    ((∃ cause, e.assemble catalog = .error (.malformed cause)) ↔
      catalog.columns? (.text e.table) ≠ none ∧ e.kind.isWritable = true ∧
        ∀ columns kind, ¬Admitted catalog e columns kind) ∧
    (e.assemble catalog = .error (.argument .longNumber) ↔
      catalog.columns? (.text e.table) ≠ none ∧ e.kind.isWritable = false) := by
  have hverdict := assemble_verdict catalog e
  have hok : ∀ c, e.assemble catalog = .ok c ↔
      ∃ columns kind, Admitted catalog e columns kind ∧ Assembled e columns kind c := by
    intro c
    constructor
    · intro hrun
      rw [hrun] at hverdict
      cases hverdict with
      | admitted h hc => exact ⟨_, _, h, hc⟩
    · rintro ⟨columns, kind, h, hc⟩
      exact hc.assemble h
  refine ⟨⟨?_, ?_⟩, hok, ?_⟩
  · rintro ⟨c, hrun⟩
    obtain ⟨columns, kind, h, _⟩ := (hok c).1 hrun
    exact ⟨columns, kind, h⟩
  · rintro ⟨columns, kind, h⟩
    obtain ⟨c, hrun, -⟩ := h.assemble
    exact ⟨c, hrun⟩
  generalize e.assemble catalog = run at hverdict
  cases hverdict with
  | admitted h _ =>
    refine ⟨⟨nofun, fun hnone => ?_⟩, ⟨nofun, fun hnot => absurd h (hnot.2.2 _ _)⟩,
      ⟨nofun, fun hlong => ?_⟩⟩
    · cases h.table.symm.trans hnone
    · cases h.named.isWritable.symm.trans hlong.2
  | unknown hnone =>
    exact ⟨⟨fun _ => hnone, fun _ => rfl⟩, ⟨nofun, fun hnot => absurd hnone hnot.1⟩,
      ⟨nofun, fun hlong => absurd hnone hlong.1⟩⟩
  | malformed htable hw hall =>
    have hsome : catalog.columns? (.text e.table) ≠ none := by simp [htable]
    refine ⟨⟨nofun, fun hnone => absurd hnone hsome⟩,
      ⟨fun _ => ⟨hsome, hw, fun columns kind h => hall kind ?_⟩, fun _ => ⟨_, rfl⟩⟩,
      ⟨nofun, fun hlong => ?_⟩⟩
    · cases h.table.symm.trans htable
      exact h
    · cases hw.symm.trans hlong.2
  | unwritable htable hw =>
    have hsome : catalog.columns? (.text e.table) ≠ none := by simp [htable]
    refine ⟨⟨nofun, fun hnone => absurd hnone hsome⟩, ⟨nofun, fun hnot => ?_⟩,
      ⟨fun _ => ⟨hsome, hw⟩, fun _ => rfl⟩⟩
    cases hw.symm.trans hnot.2.1

/-- The declaration of one table, of one column. -/
def oneTable : Catalog := ⟨Keyed.ofList [(.text "t", ⟨.text "t", ["id"]⟩)]⟩

/-- An entry of that table whose kind is a number with a digit too many. -/
def longKind : LogEntry :=
  ⟨"t", .int Text.Decimal.longNumber, .known 5, none, some (Keyed.ofList [("id", .int 1)])⟩

/-- **A fault of others.** The table of the entry is declared, but the number that it gives for its
kind has no text, and so it is not refused as malformed. -/
theorem long_kind_not_malformed :
    oneTable.columns? (.text longKind.table) = some (["id"] : List Text)
    ∧ longKind.assemble oneTable = .error (.argument .longNumber)
    ∧ ∀ cause, longKind.assemble oneTable ≠ .error (.malformed cause) := by
  have htable : oneTable.columns? (.text longKind.table) = some (["id"] : List Text) := rfl
  have hlong : longKind.kind.isWritable = false := Text.Decimal.isShort_longNumber
  have hrun := assemble_of_kind_error htable (ChangeKind.ofValue_of_not_writable hlong)
  refine ⟨htable, hrun, fun cause h => ?_⟩
  cases hrun.symm.trans h

end LogEntry

end Changefeed
