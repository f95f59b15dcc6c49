import Changefeed.Proofs.Payload.Refusals

/-!
# What a payload is decoded to

What an entry of a payload says is a matter of which fields its object has, and
of nothing else: a table, named as a whole or in two parts (`NamesTable`); a kind
of change under one of two names (`GivesKind`); a position; and an image, or
none, on either side (`Shows`). An entry of which all that can be said is the log
entry of `Decodes`. Otherwise one thing is the first that cannot, in the order in
which an entry is looked through, and `Flawed` is that thing and its fault.

The relations speak of the fields that an object has. That the readers find
these, and not some others of the same name, is because an object that was read
from a text has no name twice (`Json.Readable`).
-/

namespace Changefeed.Payload

/-! ## What the fields of an object say -/

/-- An object has a value under a name, and one that is not null. -/
def Gives (fields : List (Text × Json)) (name : Text) (v : Json) : Prop :=
  (name, v) ∈ fields ∧ v ≠ .null

/-- An object has a value under a name, and one that says something. -/
def Tells (fields : List (Text × Json)) (name : Text) (v : Json) : Prop :=
  (name, v) ∈ fields ∧ v.saysSomething = true

/-- The table that an object names: as a whole, or else by schema and name. -/
inductive NamesTable (fields : List (Text × Json)) : Text → Prop
  | whole {t : Json} : Tells fields "table" t → NamesTable fields t.asText
  | parts {s n : Json} : (∀ t, ¬Tells fields "table" t) → Tells fields "schema" s →
      Tells fields "name" n → NamesTable fields (s.asText ++ "." ++ n.asText)

/-- The kind that an object gives: under `op`, or under `kind` if it has no `op` at all. -/
inductive GivesKind (fields : List (Text × Json)) : Json → Prop
  | op {v : Json} : Gives fields "op" v → GivesKind fields v
  | kind {v : Json} : (∀ w, (("op" : Text), w) ∉ fields) → Gives fields "kind" v → GivesKind fields v

/-- The image that an object shows on a side, with the columns and values just as they are given. -/
inductive Shows (fields : List (Text × Json)) (side : Side) : Option Image → Prop
  | absent : (∀ v, ¬Gives fields side.word v) → Shows fields side none
  | record {columns : List (Text × Json)} {image : Image} :
      Gives fields side.word (.record columns) → image.toList = Data.ofJsonFields columns →
      Shows fields side (some image)

/-- What comes first in an object: its table, its kind as it is given, and its position. -/
structure Placed (fields : List (Text × Json)) (table : Text) (given : Json) (p : Position) :
    Prop where
  table : NamesTable fields table
  given : GivesKind fields given
  position : ∃ place, Gives fields "lsn" place ∧ Position.ofJson place = .ok p

/-- The log entry that an item is. -/
inductive Decodes : Json → LogEntry → Prop
  | record {fields : List (Text × Json)} {table : Text} {given : Json} {p : Position}
      {before after : Option Image} {kind : ChangeKind} : Placed fields table given p →
      Shows fields .before before → Shows fields .after after →
      ChangeKind.Named (Data.ofJson given) kind →
      Decodes (.record fields) ⟨table, .mark (.kind kind), p, before, after⟩

/-- The first that is wrong with an item, everything that is looked at before it being right. -/
inductive Flawed : Json → Fault → Prop
  | notRecord {item : Json} : (∀ fields, item ≠ .record fields) →
      Flawed item (.malformed .notRecord)
  | noTable {fields : List (Text × Json)} : (∀ table, ¬NamesTable fields table) →
      Flawed (.record fields) (.malformed .noTable)
  | noKind {fields : List (Text × Json)} {table : Text} : NamesTable fields table →
      (∀ given, ¬GivesKind fields given) → Flawed (.record fields) (.malformed (.noKind table))
  | noPosition {fields : List (Text × Json)} {table : Text} {given : Json} :
      NamesTable fields table → GivesKind fields given → (∀ place, ¬Gives fields "lsn" place) →
      Flawed (.record fields) (.malformed (.noPosition table))
  | badPosition {fields : List (Text × Json)} {table : Text} {given place : Json}
      {f : Fault} : NamesTable fields table → GivesKind fields given →
      Gives fields "lsn" place → Position.ofJson place = .error f → Flawed (.record fields) f
  | badBefore {fields : List (Text × Json)} {table : Text} {given : Json} {p : Position} :
      Placed fields table given p → (∀ image, ¬Shows fields .before image) →
      Flawed (.record fields) (.malformed (.imageNotRecord .before table))
  | badAfter {fields : List (Text × Json)} {table : Text} {given : Json} {p : Position}
      {before : Option Image} : Placed fields table given p → Shows fields .before before →
      (∀ image, ¬Shows fields .after image) →
      Flawed (.record fields) (.malformed (.imageNotRecord .after table))
  | badKind {fields : List (Text × Json)} {table : Text} {given : Json} {p : Position}
      {before after : Option Image} : Placed fields table given p →
      Shows fields .before before → Shows fields .after after →
      (∀ kind, ¬ChangeKind.Named (Data.ofJson given) kind) →
      Flawed (.record fields) (.malformed (.unknownKind (Data.ofJson given)))

/-! ## Reading the fields -/

section Fields

variable {fields : List (Text × Json)} {name table : Text} {v : Json}

theorem field?_eq_some_iff (h : (fields.map Prod.fst).Nodup) :
    field? fields name = some v ↔ (name, v) ∈ fields := Keyed.find_eq_some_iff h

theorem given?_eq_some_iff (h : (fields.map Prod.fst).Nodup) :
    given? fields name = some v ↔ Gives fields name v := by
  unfold Gives
  rw [← field?_eq_some_iff h]
  unfold given?
  split
  · rename_i hnull
    rw [hnull]
    exact ⟨nofun, fun ⟨hv, hne⟩ => absurd (Option.some.inj hv).symm hne⟩
  · rename_i hne
    exact ⟨fun hv => ⟨hv, fun hnull => hne (hnull ▸ hv)⟩, And.left⟩

theorem telling?_eq_some_iff (h : (fields.map Prod.fst).Nodup) :
    telling? fields name = some v ↔ Tells fields name v := by
  unfold telling? Tells
  rw [Option.filter_eq_some_iff, field?_eq_some_iff h]

theorem eq_none_iff_of_eq_some_iff {α : Type} {o : Option α} {P : α → Prop}
    (h : ∀ a, o = some a ↔ P a) : o = none ↔ ∀ a, ¬P a := by
  rw [Option.eq_none_iff_forall_ne_some]
  exact forall_congr' fun a => not_congr (h a)

theorem table?_eq_some_iff (h : (fields.map Prod.fst).Nodup) :
    table? fields = some table ↔ NamesTable fields table := by
  unfold table?
  have htells : ∀ name v, telling? fields name = some v ↔ Tells fields name v :=
    fun _ _ => telling?_eq_some_iff h
  constructor
  · intro htable
    split at htable
    · rename_i t ht
      cases htable
      exact .whole ((htells _ _).1 ht)
    · rename_i hnone
      split at htable
      · rename_i s n hs hn
        cases htable
        exact .parts ((eq_none_iff_of_eq_some_iff (htells _)).1 hnone) ((htells _ _).1 hs)
          ((htells _ _).1 hn)
      · cases htable
  · intro htable
    cases htable with
    | whole ht => rw [(htells _ _).2 ht]
    | parts hnone hs hn =>
      rw [(eq_none_iff_of_eq_some_iff (htells _)).2 hnone, (htells _ _).2 hs, (htells _ _).2 hn]

theorem kind?_eq_some_iff (h : (fields.map Prod.fst).Nodup) :
    kind? fields = some v ↔ GivesKind fields v := by
  unfold kind?
  have hfield : field? fields "op" = none ↔ ∀ w, (("op" : Text), w) ∉ fields :=
    eq_none_iff_of_eq_some_iff fun _ => field?_eq_some_iff h
  constructor
  · intro hkind
    split at hkind
    · exact .op ((given?_eq_some_iff h).1 hkind)
    · rename_i hnone
      exact .kind (hfield.1 hnone) ((given?_eq_some_iff h).1 hkind)
  · intro hkind
    cases hkind with
    | op hop =>
      rw [(field?_eq_some_iff h).2 hop.1]
      exact (given?_eq_some_iff h).2 hop
    | kind hnone hv =>
      rw [hfield.2 hnone]
      exact (given?_eq_some_iff h).2 hv

theorem map_fst_ofJsonFields (columns : List (Text × Json)) :
    (Data.ofJsonFields columns : List (Text × Value)).map Prod.fst = columns.map Prod.fst := by
  induction columns with
  | nil => rfl
  | cons c rest ih => rw [Data.ofJsonFields, List.map_cons, List.map_cons, ih]

theorem toList_image {columns : List (Text × Json)} (h : Json.Readable (.record columns)) :
    (Keyed.ofList (Data.ofJsonFields columns) : Image).toList = Data.ofJsonFields columns :=
  Keyed.toList_ofList (by rw [map_fst_ofJsonFields]; exact (readable_fields h).1)

/-- **The image on a side** is read as it is shown, and anything but a record as none. -/
theorem image_cases (h : Json.Readable (.record fields)) (table : Text) (side : Side) :
    (∃ i, image fields table side = .ok i ∧ ∀ i', Shows fields side i' ↔ i' = i) ∨
      (image fields table side = .error (.malformed (.imageNotRecord side table)) ∧
        ∀ i, ¬Shows fields side i) := by
  obtain ⟨hnodup, hreadable⟩ := readable_fields h
  have hgives : ∀ v, given? fields side.word = some v ↔ Gives fields side.word v :=
    fun _ => given?_eq_some_iff hnodup
  unfold image
  cases hgiven : given? fields side.word with
  | none =>
    have hnone := (eq_none_iff_of_eq_some_iff hgives).1 hgiven
    refine .inl ⟨none, rfl, fun i' => ⟨fun hs => ?_, fun hi => hi ▸ .absent hnone⟩⟩
    cases hs with
    | absent _ => rfl
    | record hr _ => exact absurd hr (hnone _)
  | some v =>
    have hv := (hgives v).1 hgiven
    by_cases hrecord : ∃ columns, v = .record columns
    · obtain ⟨columns, rfl⟩ := hrecord
      have hcolumns := toList_image (hreadable _ hv.1)
      refine .inl ⟨_, rfl, fun i' => ⟨fun hs => ?_, fun hi => hi ▸ .record hv hcolumns⟩⟩
      cases hs with
      | absent hnone => exact absurd hv (hnone _)
      | record hr himage =>
        cases hgiven.symm.trans ((hgives _).2 hr)
        exact congrArg some (Keyed.ext (himage.trans hcolumns.symm))
    · refine .inr ⟨?_, fun i hs => ?_⟩
      · cases v with
        | record columns => exact absurd ⟨columns, rfl⟩ hrecord
        | mark m => exact nomatch m
        | _ => rfl
      · cases hs with
        | absent hnone => exact hnone v hv
        | record hr _ =>
          exact hrecord ⟨_, Option.some.inj (hgiven.symm.trans ((hgives _).2 hr))⟩

theorem image_eq_ok_iff (h : Json.Readable (.record fields)) {side : Side} {i : Option Image} :
    image fields table side = .ok i ↔ Shows fields side i := by
  rcases image_cases h table side with ⟨i', hrun, hi⟩ | ⟨hrun, hnone⟩
  · rw [hrun, hi, Except.ok.injEq, eq_comm]
  · rw [hrun]
    exact ⟨nofun, fun hs => absurd hs (hnone i)⟩

theorem image_of_none (h : Json.Readable (.record fields)) {side : Side}
    (hnone : ∀ i, ¬Shows fields side i) :
    image fields table side = .error (.malformed (.imageNotRecord side table)) := by
  rcases image_cases h table side with ⟨i, _, hi⟩ | ⟨hrun, _⟩
  · exact absurd ((hi i).2 rfl) (hnone i)
  · exact hrun

end Fields

/-! ## Reading an item -/

section Items

variable {fields : List (Text × Json)} {item given : Json} {table : Text} {p : Position}
  {e : LogEntry} {f : Fault}

/-- What is left to be read after the table, the kind as it is given and the position. -/
def restOfEntry (fields : List (Text × Json)) (table : Text) (given : Json) (p : Position) :
    Except Fault LogEntry := do
  let before ← image fields table .before
  let after ← image fields table .after
  let kind ← ChangeKind.ofValue (Data.ofJson given)
  return ⟨table, .mark (.kind kind), p, before, after⟩

/-- What is left to be read after the table and the kind as it is given. -/
def restFromPosition (fields : List (Text × Json)) (table : Text) (given : Json) :
    Except Fault LogEntry := do
  let place ← require (.noPosition table) (given? fields "lsn")
  restOfEntry fields table given (← Position.ofJson place)

theorem entry_of_kind (h : Json.Readable (.record fields)) (htable : NamesTable fields table)
    (hgiven : GivesKind fields given) :
    entry (.record fields) = restFromPosition fields table given := by
  obtain ⟨hnodup, _⟩ := readable_fields h
  show entryOfFields fields = _
  unfold entryOfFields
  rw [(table?_eq_some_iff hnodup).2 htable, (kind?_eq_some_iff hnodup).2 hgiven]
  rfl

theorem restFromPosition_of_given (h : Json.Readable (.record fields)) {place : Json}
    (hplace : Gives fields "lsn" place) : restFromPosition fields table given =
      Position.ofJson place >>= restOfEntry fields table given := by
  unfold restFromPosition
  rw [(given?_eq_some_iff (readable_fields h).1).2 hplace]
  rfl

theorem Placed.entry (h : Json.Readable (.record fields)) (hp : Placed fields table given p) :
    entry (.record fields) = restOfEntry fields table given p := by
  obtain ⟨htable, hgiven, place, hplace, hread⟩ := hp
  rw [entry_of_kind h htable hgiven, restFromPosition_of_given h hplace, hread]
  rfl

theorem Decodes.entry (h : Json.Readable item) (hd : Decodes item e) :
    entry item = .ok e := by
  cases hd with
  | record hp hbefore hafter hkind =>
    rw [hp.entry h]
    unfold restOfEntry
    rw [(image_eq_ok_iff h).2 hbefore, (image_eq_ok_iff h).2 hafter,
      ChangeKind.ofValue_eq_ok_iff.2 hkind]
    rfl

theorem Flawed.entry (h : Json.Readable item) (hf : Flawed item f) :
    entry item = .error f := by
  cases hf with
  | notRecord hne =>
    cases item with
    | record fields => exact absurd rfl (hne fields)
    | mark m => exact nomatch m
    | _ => rfl
  | noTable hnone =>
    obtain ⟨hnodup, _⟩ := readable_fields h
    show entryOfFields _ = _
    unfold entryOfFields
    rw [(eq_none_iff_of_eq_some_iff fun _ => table?_eq_some_iff hnodup).2 hnone]
    rfl
  | noKind htable hnone =>
    obtain ⟨hnodup, _⟩ := readable_fields h
    show entryOfFields _ = _
    unfold entryOfFields
    rw [(table?_eq_some_iff hnodup).2 htable,
      (eq_none_iff_of_eq_some_iff fun _ => kind?_eq_some_iff hnodup).2 hnone]
    rfl
  | noPosition htable hgiven hnone =>
    obtain ⟨hnodup, _⟩ := readable_fields h
    rw [entry_of_kind h htable hgiven]
    unfold restFromPosition
    rw [(eq_none_iff_of_eq_some_iff fun _ => given?_eq_some_iff hnodup).2 hnone]
    rfl
  | badPosition htable hgiven hplace hread =>
    rw [entry_of_kind h htable hgiven, restFromPosition_of_given h hplace, hread]
    rfl
  | badBefore hp hnone =>
    rw [hp.entry h]
    unfold restOfEntry
    rw [image_of_none h hnone]
    rfl
  | badAfter hp hbefore hnone =>
    rw [hp.entry h]
    unfold restOfEntry
    rw [(image_eq_ok_iff h).2 hbefore, image_of_none h hnone]
    rfl
  | badKind hp hbefore hafter hnone =>
    have hgiven := (kind?_eq_some_iff (readable_fields h).1).2 hp.given
    have hw := isWritable_of_kind? h hgiven
    rw [hp.entry h]
    unfold restOfEntry
    rw [(image_eq_ok_iff h).2 hbefore, (image_eq_ok_iff h).2 hafter,
      (ChangeKind.ofValue_eq_error_iff hw).2 ⟨hnone, rfl⟩]
    rfl

/-- An object has a table, a kind and a position to begin with, or lacks one of them first. -/
theorem placed_or_flawed (fields : List (Text × Json)) :
    (∃ table given p, Placed fields table given p) ∨ ∃ f, Flawed (.record fields) f := by
  rcases em' (∃ table, NamesTable fields table) with hnone | ⟨table, htable⟩
  · exact .inr ⟨_, .noTable (not_exists.1 hnone)⟩
  rcases em' (∃ given, GivesKind fields given) with hnone | ⟨given, hgiven⟩
  · exact .inr ⟨_, .noKind htable (not_exists.1 hnone)⟩
  rcases em' (∃ place, Gives fields "lsn" place) with hnone | ⟨place, hplace⟩
  · exact .inr ⟨_, .noPosition htable hgiven (not_exists.1 hnone)⟩
  cases hread : Position.ofJson place with
  | error f => exact .inr ⟨f, .badPosition htable hgiven hplace hread⟩
  | ok p => exact .inl ⟨table, given, p, htable, hgiven, place, hplace, hread⟩

/-- Every item is a log entry, or something is the first that is wrong with it. -/
theorem decodes_or_flawed (item : Json) : (∃ e, Decodes item e) ∨ ∃ f, Flawed item f := by
  rcases em' (∃ fields, item = .record fields) with hnone | ⟨fields, rfl⟩
  · exact .inr ⟨_, .notRecord (not_exists.1 hnone)⟩
  rcases placed_or_flawed fields with ⟨table, given, p, hp⟩ | hf
  · rcases em' (∃ image, Shows fields .before image) with hnone | ⟨before, hbefore⟩
    · exact .inr ⟨_, .badBefore hp (not_exists.1 hnone)⟩
    rcases em' (∃ image, Shows fields .after image) with hnone | ⟨after, hafter⟩
    · exact .inr ⟨_, .badAfter hp hbefore (not_exists.1 hnone)⟩
    rcases em' (∃ kind, ChangeKind.Named (Data.ofJson given) kind) with hnone | ⟨kind, hkind⟩
    · exact .inr ⟨_, .badKind hp hbefore hafter (not_exists.1 hnone)⟩
    exact .inl ⟨_, .record hp hbefore hafter hkind⟩
  · exact .inr hf

theorem entry_eq_ok_iff_decodes (h : Json.Readable item) : entry item = .ok e ↔ Decodes item e := by
  refine ⟨fun hrun => ?_, fun hd => hd.entry h⟩
  rcases decodes_or_flawed item with ⟨e', hd⟩ | ⟨f, hf⟩
  · cases hrun.symm.trans (hd.entry h)
    exact hd
  · cases hrun.symm.trans (hf.entry h)

theorem entry_eq_error_iff_flawed (h : Json.Readable item) :
    entry item = .error f ↔ Flawed item f := by
  refine ⟨fun hrun => ?_, fun hf => hf.entry h⟩
  rcases decodes_or_flawed item with ⟨e, hd⟩ | ⟨f', hf⟩
  · cases hrun.symm.trans (hd.entry h)
  · cases hrun.symm.trans (hf.entry h)
    exact hf

end Items

/-! ## Reading a payload -/

/-- Items are read as the log entries that they are. -/
theorem forall₂_entry_iff_decodes {l : List Json} (h : ∀ item ∈ l, Json.Readable item)
    {es : List LogEntry} :
    List.Forall₂ (fun item e => entry item = .ok e) l es ↔ List.Forall₂ Decodes l es :=
  forall₂_congr_mem fun item hi _ => entry_eq_ok_iff_decodes (h item hi)

variable {payload : Delivery} {s : String} {document : Json}

/--
**What a payload is decoded to.**

A payload that is a document is decoded exactly if each of its items is a log entry by
what its fields say, and then to these log entries, one for each item and in their order.
Otherwise it is refused in the fault of the first item that is none, and that is the fault of
what comes first of all that is wrong with it. An object by itself is decoded as if it stood in a
list alone.
-/
theorem decoded_by_items (hs : Holds payload s) (hread : Json.read s = .ok document) :
    (∀ es, decode payload = .ok es ↔ List.Forall₂ Decodes (items document) es) ∧
    (∀ f, decode payload = .error f ↔ ∃ pre item post es,
      items document = pre ++ item :: post ∧ List.Forall₂ Decodes pre es ∧ Flawed item f) ∧
    (∀ fields, document = .record fields → ∀ payload' s', Holds payload' s' →
      Json.read s' = .ok (.list [document]) → decode payload' = decode payload) := by
  have hreadable := readable_items (Json.Readable.of_read hread)
  have hrun : decode payload = (items document).mapM entry :=
    decode_of_lists ⟨s, document, hs, hread, rfl⟩
  refine ⟨fun es => ?_, fun f => ?_, ?_⟩
  · rw [hrun, mapM_eq_ok_iff, forall₂_entry_iff_decodes hreadable]
  · rw [hrun, mapM_eq_error_iff]
    refine exists₄_congr fun pre item post es => and_congr_right fun hsplit => ?_
    rw [hsplit] at hreadable
    have hpre := fun x hx => hreadable x (List.mem_append_left _ hx)
    have hitem := hreadable item (List.mem_append_right _ List.mem_cons_self)
    rw [forall₂_entry_iff_decodes hpre, entry_eq_error_iff_flawed hitem]
  · rintro fields rfl payload' s' hs' hread'
    rw [hrun]
    exact decode_of_lists ⟨s', _, hs', hread', rfl⟩

/-- An entry that names its table in two parts, for what it has under `table` says nothing. -/
def entryInParts : List (Text × Json) :=
  [("after", .record [("a", .null)]), ("lsn", .text "5"), ("name", .text "t"), ("op", .text " C "),
    ("schema", .text "s"), ("table", .int 0)]

/-- The log entry that it is. -/
def insertInParts : LogEntry :=
  ⟨"s" ++ "." ++ "t", .mark (.kind .insert), .known 5, none, some (Keyed.ofList [("a", .null)])⟩

/-- An entry with a truth value for an image, and of no known kind besides. -/
def entryWithBadImage : List (Text × Json) :=
  [("before", .bool false), ("kind", .text "x"), ("lsn", .int 6), ("table", .text "t")]

theorem decodes_entryInParts : Decodes (.record entryInParts) insertInParts := by
  have htable : ∀ t, ¬Tells entryInParts "table" t := by
    rintro t ⟨hmem, hsays⟩
    simp [entryInParts] at hmem
    subst hmem
    cases hsays
  have hnamed : NamesTable entryInParts
      (Data.asText (.text "s") ++ "." ++ Data.asText (.text "t")) :=
    .parts htable ⟨by simp [entryInParts], rfl⟩ ⟨by simp [entryInParts], rfl⟩
  have hgiven : GivesKind entryInParts (.text " C ") := .op ⟨by simp [entryInParts], nofun⟩
  have hplaced : Placed entryInParts _ (.text " C ") (.known 5) :=
    ⟨hnamed, hgiven, .text "5", ⟨by simp [entryInParts], nofun⟩, Position.ofText_text (.known 5)⟩
  have hbefore : Shows entryInParts .before none := by
    refine .absent fun v hv => ?_
    simpa [entryInParts, Side.word] using hv.1
  have hcolumns : Gives entryInParts Side.after.word (.record [("a", .null)]) :=
    ⟨by simp [entryInParts, Side.word], nofun⟩
  have hafter : Shows entryInParts .after (some (Keyed.ofList [("a", .null)])) :=
    .record hcolumns rfl
  have hkind : ChangeKind.Named (Data.ofJson (.text " C ")) .insert :=
    .inr ⟨rfl, " C ", rfl, .inr (by decide +kernel)⟩
  exact .record hplaced hbefore hafter hkind

theorem flawed_entryWithBadImage :
    Flawed (.record entryWithBadImage) (.malformed (.imageNotRecord .before "t")) := by
  have hnamed : NamesTable entryWithBadImage (Data.asText (.text "t")) :=
    .whole ⟨by simp [entryWithBadImage], rfl⟩
  have hgiven : GivesKind entryWithBadImage (.text "x") :=
    .kind (by simp [entryWithBadImage]) ⟨by simp [entryWithBadImage], nofun⟩
  have hplaced : Placed entryWithBadImage "t" (.text "x") (.known 6) :=
    ⟨hnamed, hgiven, .int 6, ⟨by simp [entryWithBadImage], nofun⟩, rfl⟩
  refine .badBefore hplaced fun image hs => ?_
  cases hs with
  | absent hnone => exact hnone (.bool false) ⟨by simp [entryWithBadImage, Side.word], nofun⟩
  | record hr _ => simpa [entryWithBadImage, Side.word] using hr.1

/-- The first payload is decoded to a log entry. The other is refused for its image, since the kind
is looked at last. -/
theorem decoded_and_refused :
    Json.read (Json.write (.record entryInParts)) = .ok (.record entryInParts)
    ∧ decode (.text (Json.write (.record entryInParts))) = .ok [insertInParts]
    ∧ Json.read (Json.write (.record entryWithBadImage)) = .ok (.record entryWithBadImage)
    ∧ decode (.text (Json.write (.record entryWithBadImage))) =
      .error (.malformed (.imageNotRecord .before "t")) := by
  have hcolumns : Json.Readable (.record [("a", .null)])
      ∧ Json.normal (.record [("a", .null)]) = .record [("a", .null)] :=
    ⟨.record _ (by decide) (List.forall_mem_singleton.2 .null),
      Json.normal_record_of_sorted (List.pairwise_singleton ..) (List.forall_mem_singleton.2 rfl)⟩
  have hfirst : Json.read (Json.write (.record entryInParts)) = .ok (.record entryInParts) := by
    refine Json.read_write_of_sorted (by decide) (by decide +kernel) ?_
    simp only [entryInParts, List.mem_cons, List.not_mem_nil, or_false, forall_eq_or_imp,
      forall_eq]
    exact ⟨hcolumns, ⟨.text _, rfl⟩, ⟨.text _, rfl⟩, ⟨.text _, rfl⟩, ⟨.text _, rfl⟩,
      ⟨.int _ (by decide), rfl⟩⟩
  have hsecond : Json.read (Json.write (.record entryWithBadImage)) =
      .ok (.record entryWithBadImage) := by
    refine Json.read_write_of_sorted (by decide) (by decide +kernel) ?_
    simp only [entryWithBadImage, List.mem_cons, List.not_mem_nil, or_false, forall_eq_or_imp,
      forall_eq]
    exact ⟨⟨.bool _, rfl⟩, ⟨.text _, rfl⟩, ⟨.int _ (by decide), rfl⟩, ⟨.text _, rfl⟩⟩
  have hholds : ∀ s, Holds (.text s) s := fun _ => rfl
  obtain ⟨hdecoded, -⟩ := decoded_by_items (hholds _) hfirst
  obtain ⟨-, hrefused, -⟩ := decoded_by_items (hholds _) hsecond
  exact ⟨hfirst, (hdecoded _).2 (.cons decodes_entryInParts .nil), hsecond,
    (hrefused _).2 ⟨[], _, [], [], rfl, .nil, flawed_entryWithBadImage⟩⟩

end Changefeed.Payload
