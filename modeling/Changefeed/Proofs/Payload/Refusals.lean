import Mathlib.Data.List.Forall2
import Changefeed.Payload
import Changefeed.Proofs.Change.Admission
import Changefeed.Proofs.Json.Flaws
import Changefeed.Proofs.Position.Spelling
import Changefeed.Proofs.Text.Utf8

/-!
# Why a payload is refused

A payload comes to log entries if every entry in it reports one (`Reports`), and is
refused for the first entry that does not: because a field of it is missing or misused
(`Misuses`), or because its position denotes none. So is a payload that is no document,
and all of that in faults of the feed's own. Every payload comes out in one of the ways
of `Outcome`, and the ways in which faults of others come through are three
(`Strays`): octets that are no text, a whole number with too many digits, and an entry
whose position is a text with too many digits.

Each part of an entry is judged by itself (`Judged`), and an entry as the chain of its
parts. No part fails for a number that is too long to be shown in the message, because
an entry is an item of a document that was read (`isWritable_of_given?`).
-/

namespace Changefeed

/-- A payload as it is delivered. -/
inductive Delivery where
  | text (s : String)
  | octets (bytes : List UInt8)

namespace Payload

/-- The log entries of a payload. -/
def decode : Delivery → Except Fault (List LogEntry)
  | .text s => ofText s
  | .octets bytes => ofOctets bytes

/-- The entries in a document: the items of a list, or the document itself. -/
def items : Json → List Json
  | .list items => items
  | item => [item]

/-! ## What an entry says -/

/-- The text of a document as the word for a kind of change. -/
def wordOf (given : Json) : Text := (Data.ofJson given : Value).asText

/-- An image as it is given, and as it is reported. -/
inductive Imaged : Option Json → Option Image → Prop
  | absent : Imaged none none
  | record (columns : List (Text × Json)) :
      Imaged (some (.record columns)) (some (Keyed.ofList (Data.ofJsonFields columns)))

/-- The log entry that an object reports, field by field. -/
structure Reports (fields : List (Text × Json)) (e : LogEntry) : Prop where
  table : table? fields = some e.table
  kind : ∃ given kind, kind? fields = some given ∧ ChangeKind.ofText? (wordOf given) = some kind
    ∧ e.kind = .mark (.kind kind)
  position : ∃ place, given? fields "lsn" = some place ∧ (∀ k, ¬place.Overlong k)
    ∧ place.Denotes e.position
  image : ∀ side, Imaged (given? fields side.word) (e.image side)

/-- The log entry that a document reports. -/
def ReportsOne (item : Json) (e : LogEntry) : Prop :=
  ∃ fields, item = .record fields ∧ Reports fields e

/-- What is wrong with an entry, other than its position. -/
inductive Misuses : Json → ChangeCause → Prop
  | notRecord {item : Json} : (∀ fields, item ≠ .record fields) → Misuses item .notRecord
  | noTable {fields : List (Text × Json)} : table? fields = none →
      Misuses (.record fields) .noTable
  | noKind {fields : List (Text × Json)} {table : Text} : table? fields = some table →
      kind? fields = none → Misuses (.record fields) (.noKind table)
  | noPosition {fields : List (Text × Json)} {table : Text} : table? fields = some table →
      given? fields "lsn" = none → Misuses (.record fields) (.noPosition table)
  | image {fields : List (Text × Json)} {table : Text} {side : Side} {image : Json} :
      table? fields = some table → given? fields side.word = some image →
      (∀ columns, image ≠ .record columns) →
      Misuses (.record fields) (.imageNotRecord side table)
  | kind {fields : List (Text × Json)} {given : Json} : kind? fields = some given →
      ChangeKind.ofText? (wordOf given) = none →
      Misuses (.record fields) (.unknownKind (Data.ofJson given))

/-- An entry that names its table and its kind, with a text of too many digits for its position. -/
inductive Overreaches : Json → Nat → Prop
  | position {fields : List (Text × Json)} {table : Text} {given place : Json} {k : Nat} :
      table? fields = some table → kind? fields = some given →
      given? fields "lsn" = some place → place.Overlong k → Overreaches (.record fields) k

/-- Why an entry is refused. -/
inductive Refused : Json → Fault → Prop
  | misused {item : Json} {cause : ChangeCause} : Misuses item cause →
      Refused item (.malformed cause)
  | misplaced {fields : List (Text × Json)} {place : Json} {cause : FormatCause} :
      given? fields "lsn" = some place → (∀ p, ¬place.Denotes p) →
      Refused (.record fields) (.format cause)
  | overlong {item : Json} {k : Nat} : Overreaches item k →
      Refused item (.argument (.longNumeral k))

/-! ## Reading an entry -/

/-- Reading something of an entry gives what it should, or the entry is refused. -/
inductive Judged {α : Type} (item : Json) (P : α → Prop) : Except Fault α → Prop
  | ok {a : α} : P a → Judged item P (.ok a)
  | error {f : Fault} : Refused item f → Judged item P (.error f)

variable {α β : Type} {fields : List (Text × Json)} {item : Json} {table : Text}
  {given place : Json} {e : LogEntry}

theorem Judged.bind {x : Except Fault α} {k : α → Except Fault β} {P : α → Prop}
    {Q : β → Prop} (h : Judged item P x) (hk : ∀ a, P a → Judged item Q (k a)) :
    Judged item Q (x >>= k) := by
  cases h with
  | ok ha => exact hk _ ha
  | error hf => exact .error hf

theorem Judged.imp {x : Except Fault α} {P Q : α → Prop} (h : Judged item P x)
    (hpq : ∀ a, P a → Q a) : Judged item Q x := by
  cases h with
  | ok ha => exact .ok (hpq _ ha)
  | error hf => exact .error hf

theorem judged_require {cause : ChangeCause} {o : Option α} (h : o = none → Misuses item cause) :
    Judged item (o = some ·) (require cause o) := by
  cases o with
  | none => exact .error (.misused (h rfl))
  | some a => exact .ok rfl

theorem given?_ne_null {name : Text} (h : given? fields name = some place) : place ≠ .null := by
  rintro rfl
  unfold given? at h
  split at h
  · cases h
  · rename_i hne
    exact hne h

/-! ### What was read from a text -/

theorem readable_fields (h : Json.Readable (.record fields)) :
    (fields.map Prod.fst).Nodup ∧ ∀ f ∈ fields, Json.Readable f.2 := by
  cases h with
  | record _ hnodup hfields => exact ⟨hnodup, hfields⟩

theorem readable_items {document : Json} (h : Json.Readable document) :
    ∀ item ∈ items document, Json.Readable item := by
  cases document with
  | list items =>
    cases h with
    | list _ hitems => exact hitems
  | mark m => exact nomatch m
  | _ => exact List.forall_mem_singleton.2 h

/-- What a readable object gives can be shown in a message. -/
theorem isWritable_of_given? {name : Text} (hr : Json.Readable (.record fields))
    (h : given? fields name = some place) : place.isWritable = true := by
  obtain ⟨hnodup, hfields⟩ := readable_fields hr
  unfold given? at h
  split at h
  · cases h
  · exact (hfields _ ((Keyed.find_eq_some_iff hnodup).1 h)).isWritable

theorem isWritable_of_kind? (hr : Json.Readable (.record fields)) (h : kind? fields = some given) :
    (Data.ofJson given : Value).isWritable = true := by
  rw [Data.isWritable_ofJson]
  unfold kind? at h
  split at h <;> exact isWritable_of_given? hr h

/-! ### The parts of an entry -/

theorem judged_position (hr : Json.Readable (.record fields)) (htable : table? fields = some table)
    (hkind : kind? fields = some given) (h : given? fields "lsn" = some place) :
    Judged (.record fields) (fun p => (∀ k, ¬place.Overlong k) ∧ place.Denotes p)
      (Position.ofJson place) := by
  rcases Json.ofJson_cases (given?_ne_null h) (isWritable_of_given? hr h) with
    ⟨p, hp, hshort, hread⟩ | ⟨cause, hnone, _, hread⟩ | ⟨k, hlong, hread⟩
  · rw [hread]
    exact .ok ⟨hshort, hp⟩
  · rw [hread]
    exact .error (.misplaced h hnone)
  · rw [hread]
    exact .error (.overlong (.position htable hkind h hlong))

theorem judged_image (htable : table? fields = some table) (side : Side) :
    Judged (.record fields) (Imaged (given? fields side.word)) (image fields table side) := by
  unfold image
  split
  · rename_i hgiven
    exact .ok (hgiven ▸ .absent)
  · rename_i columns hgiven
    exact .ok (hgiven ▸ .record columns)
  · rename_i given hne hgiven
    exact .error (.misused (.image htable hgiven fun columns h => hne columns h))

theorem judged_kind (hr : Json.Readable (.record fields)) (h : kind? fields = some given) :
    Judged (.record fields) (ChangeKind.ofText? (wordOf given) = some ·)
      (ChangeKind.ofValue (Data.ofJson given)) := by
  -- a document holds no marks, so its kind is always read from its text
  have hmark : ∀ k, (Data.ofJson given : Value) ≠ .mark (.kind k) := by
    intro k
    cases given with
    | mark m => exact nomatch m
    | _ => rintro ⟨⟩
  rw [ChangeKind.ofValue_of_text hmark (isWritable_of_kind? hr h)]
  show Judged _ _ ((ChangeKind.ofText? (wordOf given)).elim _ .ok)
  cases hword : ChangeKind.ofText? (wordOf given) with
  | some kind => exact .ok rfl
  | none => exact .error (.misused (.kind h hword))

/-- **An object** reports a log entry or is refused. -/
theorem judged_entryOfFields (hr : Json.Readable (.record fields)) :
    Judged (.record fields) (Reports fields) (entryOfFields fields) := by
  unfold entryOfFields
  refine (judged_require .noTable).bind fun table htable => ?_
  refine (judged_require (.noKind htable)).bind fun given hkind => ?_
  refine (judged_require (.noPosition htable)).bind fun place hplace => ?_
  refine (judged_position hr htable hkind hplace).bind fun position hposition => ?_
  refine (judged_image htable .before).bind fun before hbefore => ?_
  refine (judged_image htable .after).bind fun after hafter => ?_
  refine (judged_kind hr hkind).bind fun kind hword => ?_
  refine .ok ⟨htable, ⟨given, kind, hkind, hword, rfl⟩, ⟨place, hplace, hposition⟩, fun side => ?_⟩
  cases side with
  | before => exact hbefore
  | after => exact hafter

/-- **A document** reports a log entry or is refused. -/
theorem judged_entry (hr : Json.Readable item) : Judged item (ReportsOne item) (entry item) := by
  have hother : (∀ fields, item ≠ .record fields) →
      Judged item (ReportsOne item) (.error (.malformed .notRecord)) :=
    fun hne => .error (.misused (.notRecord hne))
  cases item with
  | record fields => exact (judged_entryOfFields hr).imp fun e he => ⟨fields, rfl, he⟩
  | mark m => exact nomatch m
  | _ => exact hother nofun

/-! ## What is read is what is reported -/

theorem Imaged.unique {o : Option Json} {x y : Option Image} (hx : Imaged o x) (hy : Imaged o y) :
    x = y := by
  cases hx with
  | absent =>
    cases hy
    rfl
  | record columns =>
    cases hy
    rfl

/-- No object reports two log entries. -/
theorem Reports.unique {e' : LogEntry} (h : Reports fields e) (h' : Reports fields e') :
    e = e' := by
  have htable : e.table = e'.table := Option.some.inj (h.table.symm.trans h'.table)
  have hkind : e.kind = e'.kind := by
    obtain ⟨given, k, hgiven, hword, hk⟩ := h.kind
    obtain ⟨given', k', hgiven', hword', hk'⟩ := h'.kind
    obtain rfl := Option.some.inj (hgiven.symm.trans hgiven')
    rw [hk, hk', Option.some.inj (hword.symm.trans hword')]
  have hposition : e.position = e'.position := by
    obtain ⟨place, hplace, _, hp⟩ := h.position
    obtain ⟨place', hplace', _, hp'⟩ := h'.position
    obtain rfl := Option.some.inj (hplace.symm.trans hplace')
    exact hp.unique hp'
  have hbefore : e.before = e'.before := (h.image .before).unique (h'.image .before)
  have hafter : e.after = e'.after := (h.image .after).unique (h'.image .after)
  cases e
  cases e'
  simp only at htable hkind hposition hbefore hafter
  rw [htable, hkind, hposition, hbefore, hafter]

/-- No document that reports a log entry is refused. -/
theorem ReportsOne.not_refused (h : ReportsOne item e) (f : Fault) : ¬Refused item f := by
  obtain ⟨fields, rfl, hr⟩ := h
  obtain ⟨given, k, hgiven, hword, _⟩ := hr.kind
  obtain ⟨place, hplace, hshort, hp⟩ := hr.position
  intro hf
  cases hf with
  | misused hm =>
    cases hm with
    | notRecord hne => exact hne fields rfl
    | noTable hnone => cases hr.table.symm.trans hnone
    | noKind _ hnone => cases hgiven.symm.trans hnone
    | noPosition _ hnone => cases hplace.symm.trans hnone
    | @image _ _ side _ _ himage hne =>
      have himaged := hr.image side
      rw [himage] at himaged
      generalize e.image side = reported at himaged
      cases himaged with
      | record columns => exact hne columns rfl
    | kind hgiven' hnone =>
      obtain rfl := Option.some.inj (hgiven.symm.trans hgiven')
      cases hword.symm.trans hnone
  | misplaced hplace' hnone =>
    obtain rfl := Option.some.inj (hplace.symm.trans hplace')
    exact hnone _ hp
  | overlong ho =>
    cases ho with
    | position _ _ hplace' hlong =>
      obtain rfl := Option.some.inj (hplace.symm.trans hplace')
      exact hshort _ hlong

/-- **A document is read** as the log entry that it reports. -/
theorem entry_eq_ok_iff (hr : Json.Readable item) : entry item = .ok e ↔ ReportsOne item e := by
  have h := judged_entry hr
  constructor
  · intro hrun
    rw [hrun] at h
    cases h with
    | ok he => exact he
  · intro he
    cases hrun : entry item with
    | ok e' =>
      rw [hrun] at h
      cases h with
      | ok he' =>
        obtain ⟨fields, rfl, hreports⟩ := he
        obtain ⟨_, ⟨⟩, hreports'⟩ := he'
        rw [hreports.unique hreports']
    | error f =>
      rw [hrun] at h
      cases h with
      | error hf => exact absurd hf (he.not_refused f)

theorem refused_of_entry {f : Fault} (hr : Json.Readable item) (h : entry item = .error f) :
    Refused item f := by
  have hj := judged_entry hr
  rw [h] at hj
  cases hj with
  | error hf => exact hf

/-- The digits are what counts in an entry whose position has too many, after its table and kind. -/
theorem Overreaches.entry {k : Nat} (h : Overreaches item k) :
    entry item = .error (.argument (.longNumeral k)) := by
  cases h with
  | @position fields table given place _ htable hkind hplace hlong =>
    show entryOfFields fields = _
    unfold entryOfFields
    rw [htable, hkind, hplace]
    simp only [require, bind, Except.bind]
    rw [hlong.ofJson]

/-! ## Reading all entries -/

theorem mapM_cons_ok {read : α → Except Fault β} {a : α} {b : β} {l : List α}
    (h : read a = .ok b) : (a :: l).mapM read = (l.mapM read).map (b :: ·) := by
  rw [List.mapM_cons, h]
  cases l.mapM read <;> rfl

theorem mapM_cons_error {read : α → Except Fault β} {a : α} {l : List α} {f : Fault}
    (h : read a = .error f) : (a :: l).mapM read = .error f := by
  rw [List.mapM_cons, h]
  rfl

/-- Two relations that agree on the items of a list relate it to the same lists. -/
theorem forall₂_congr_mem {R R' : α → β → Prop} {l : List α} {bs : List β}
    (h : ∀ a ∈ l, ∀ b, R a b ↔ R' a b) : List.Forall₂ R l bs ↔ List.Forall₂ R' l bs := by
  constructor
  · intro hall
    exact ((List.forall₂_and_left _ _).2 ⟨h, hall⟩).imp fun _ _ hab => (hab.1 _).1 hab.2
  · intro hall
    exact ((List.forall₂_and_left _ _).2 ⟨h, hall⟩).imp fun _ _ hab => (hab.1 _).2 hab.2

/-- What is read one after the other is read as a whole if each of it is. -/
theorem mapM_eq_ok_iff {read : α → Except Fault β} {l : List α} {bs : List β} :
    l.mapM read = .ok bs ↔ List.Forall₂ (fun a b => read a = .ok b) l bs := by
  constructor
  · intro h
    induction l generalizing bs with
    | nil =>
      cases h
      exact .nil
    | cons a l ih =>
      cases hfirst : read a with
      | error f => cases (mapM_cons_error hfirst).symm.trans h
      | ok b =>
        rw [mapM_cons_ok hfirst] at h
        cases hrest : l.mapM read with
        | error f => rw [hrest] at h; cases h
        | ok bs' =>
          rw [hrest] at h
          cases h
          exact .cons hfirst (ih hrest)
  · intro h
    induction h with
    | nil => rfl
    | cons hfirst _ ih =>
      rw [mapM_cons_ok hfirst, ih]
      rfl

/-- It is refused as the first of it is that is refused; what stands in front of that does not get
in its way, and what comes after it does not count. -/
theorem mapM_eq_error_iff {read : α → Except Fault β} {l : List α} {f : Fault} :
    l.mapM read = .error f ↔ ∃ pre a post bs, l = pre ++ a :: post ∧
      List.Forall₂ (fun a b => read a = .ok b) pre bs ∧ read a = .error f := by
  constructor
  · intro h
    induction l with
    | nil => cases h
    | cons a l ih =>
      cases hfirst : read a with
      | error g =>
        cases (mapM_cons_error hfirst).symm.trans h
        exact ⟨[], a, l, [], rfl, .nil, hfirst⟩
      | ok b =>
        rw [mapM_cons_ok hfirst] at h
        cases hrest : l.mapM read with
        | ok bs => rw [hrest] at h; cases h
        | error g =>
          rw [hrest] at h
          cases h
          obtain ⟨pre, a', post, bs, rfl, hpre, ha⟩ := ih hrest
          exact ⟨a :: pre, a', post, b :: bs, rfl, .cons hfirst hpre, ha⟩
  · rintro ⟨pre, a, post, bs, rfl, hpre, ha⟩
    induction hpre with
    | nil => exact mapM_cons_error ha
    | cons hfirst _ ih =>
      rw [List.cons_append, mapM_cons_ok hfirst, ih]
      rfl

theorem entries_eq (document : Json) : entries document = (items document).mapM entry := by
  have hone : (entry document).map (fun e => [e]) = [document].mapM entry := by
    cases hrun : entry document with
    | ok e =>
      rw [mapM_cons_ok hrun]
      rfl
    | error f =>
      rw [mapM_cons_error hrun]
      rfl
  cases document with
  | list items => rfl
  | mark m => exact nomatch m
  | _ => exact hone

/-- Items are read as the log entries that they report. -/
theorem forall₂_entry_iff {l : List Json} (hr : ∀ item ∈ l, Json.Readable item)
    {es : List LogEntry} :
    List.Forall₂ (fun item e => entry item = .ok e) l es ↔ List.Forall₂ ReportsOne l es :=
  forall₂_congr_mem fun item hi _ => entry_eq_ok_iff (hr item hi)

/-- **Documents one after the other** are read as the log entries that they report, up to the first
that is refused. -/
theorem mapM_entry_cases {l : List Json} (hr : ∀ item ∈ l, Json.Readable item) :
    (∃ es, List.Forall₂ ReportsOne l es ∧ l.mapM entry = .ok es)
      ∨ ∃ pre item post es f, l = pre ++ item :: post ∧ List.Forall₂ ReportsOne pre es
        ∧ Refused item f ∧ l.mapM entry = .error f := by
  cases hrun : l.mapM entry with
  | ok es => exact .inl ⟨es, (forall₂_entry_iff hr).1 (mapM_eq_ok_iff.1 hrun), rfl⟩
  | error f =>
    obtain ⟨pre, item, post, es, rfl, hpre, hf⟩ := mapM_eq_error_iff.1 hrun
    have hrpre := fun x hx => hr x (List.mem_append_left _ hx)
    have hritem := hr item (List.mem_append_right _ List.mem_cons_self)
    exact .inr ⟨pre, item, post, es, f, rfl, (forall₂_entry_iff hrpre).1 hpre,
      refused_of_entry hritem hf, rfl⟩

/-! ## Decoding a payload -/

/-- The text that a payload holds. -/
def Holds : Delivery → String → Prop
  | .text t, s => t = s
  | .octets bytes, s => bytes = s.toUTF8.data.toList

/-- The items of a payload, if it is a document. -/
def Lists (payload : Delivery) (l : List Json) : Prop :=
  ∃ s document, Holds payload s ∧ Json.read s = .ok document ∧ items document = l

/-- What can come of decoding a payload. -/
inductive Outcome (payload : Delivery) : Except Fault (List LogEntry) → Prop
  | entries {l : List Json} {es : List LogEntry} : Lists payload l →
      List.Forall₂ ReportsOne l es → Outcome payload (.ok es)
  | refused {pre post : List Json} {item : Json} {es : List LogEntry} {f : Fault} :
      Lists payload (pre ++ item :: post) → List.Forall₂ ReportsOne pre es → Refused item f →
      Outcome payload (.error f)
  | notJson {s : String} : Holds payload s → Json.read s = .error .malformed →
      Outcome payload (.error (.malformed .notJson))
  | longNumber {s : String} {k : Nat} : Holds payload s → Json.read s = .error (.longNumeral k) →
      Json.HasLongRun s.toList k → Outcome payload (.error (.argument (.longNumeral k)))
  | noText {flaw : Text.Utf8.Flaw} : (∀ s, ¬Holds payload s) →
      Outcome payload (.error (.encoding flaw))

/-- The payloads that are refused in a fault that is not of the feed's own. -/
inductive Strays (payload : Delivery) : Prop
  | noText : (∀ s, ¬Holds payload s) → Strays payload
  | longNumber {s : String} {k : Nat} : Holds payload s → Json.read s = .error (.longNumeral k) →
      Strays payload
  | longPosition {pre post : List Json} {item : Json} {es : List LogEntry} {k : Nat} :
      Lists payload (pre ++ item :: post) → List.Forall₂ ReportsOne pre es → Overreaches item k →
      Strays payload

variable {payload : Delivery} {s : String}

theorem decode_of_holds (h : Holds payload s) : decode payload = ofText s := by
  cases payload with
  | text t =>
    obtain rfl : t = s := h
    rfl
  | octets bytes =>
    show ofOctets bytes = ofText s
    unfold ofOctets
    rw [Text.Utf8.read_eq_ok_iff.2 h]

theorem decode_of_noText (h : ∀ s, ¬Holds payload s) :
    ∃ flaw, decode payload = .error (.encoding flaw) := by
  cases payload with
  | text t => exact absurd rfl (h t)
  | octets bytes =>
    show ∃ flaw, ofOctets bytes = _
    unfold ofOctets
    cases hread : Text.Utf8.read bytes with
    | ok s => exact absurd (Text.Utf8.read_eq_ok_iff.1 hread) (h s)
    | error flaw => exact ⟨flaw, rfl⟩

theorem decode_of_lists {l : List Json} (h : Lists payload l) :
    decode payload = l.mapM entry := by
  obtain ⟨s, document, hs, hread, rfl⟩ := h
  rw [decode_of_holds hs, ← entries_eq]
  unfold ofText
  rw [hread]

/-- The items of a payload were read from its text. -/
theorem Lists.readable {l : List Json} (h : Lists payload l) : ∀ item ∈ l, Json.Readable item := by
  obtain ⟨s, document, _, hread, rfl⟩ := h
  exact readable_items (Json.Readable.of_read hread)

theorem decode_of_reports {l : List Json} {es : List LogEntry} (hl : Lists payload l)
    (hes : List.Forall₂ ReportsOne l es) : decode payload = .ok es := by
  rw [decode_of_lists hl]
  exact mapM_eq_ok_iff.2 ((forall₂_entry_iff hl.readable).2 hes)

/-- The items in front of the first that is refused do not get in its way. -/
theorem decode_of_first {pre post : List Json} {es : List LogEntry} {f : Fault}
    (hl : Lists payload (pre ++ item :: post)) (hpre : List.Forall₂ ReportsOne pre es)
    (h : entry item = .error f) : decode payload = .error f := by
  have hrpre := fun x hx => hl.readable x (List.mem_append_left _ hx)
  rw [decode_of_lists hl]
  exact mapM_eq_error_iff.2 ⟨pre, item, post, es, rfl, (forall₂_entry_iff hrpre).2 hpre, h⟩

theorem decode_of_longNumber {k : Nat} (hs : Holds payload s)
    (hread : Json.read s = .error (.longNumeral k)) :
    decode payload = .error (.argument (.longNumeral k)) := by
  rw [decode_of_holds hs]
  unfold ofText
  rw [hread]

theorem decode_outcome (payload : Delivery) : Outcome payload (decode payload) := by
  by_cases htext : ∃ s, Holds payload s
  · obtain ⟨s, hs⟩ := htext
    cases hread : Json.read s with
    | ok document =>
      have hl : Lists payload (items document) := ⟨s, document, hs, hread, rfl⟩
      rw [decode_of_lists hl]
      rcases mapM_entry_cases hl.readable with
        ⟨es, hes, hrun⟩ | ⟨pre, item, post, es, f, hsplit, hpre, hf, hrun⟩
      · rw [hrun]
        exact .entries hl hes
      · rw [hrun]
        exact .refused (hsplit ▸ hl) hpre hf
    | error flaw =>
      cases flaw with
      | malformed =>
        rw [decode_of_holds hs]
        unfold ofText
        rw [hread]
        exact .notJson hs hread
      | longNumeral k =>
        rw [decode_of_longNumber hs hread]
        exact .longNumber hs hread (Json.hasLongRun_of_read hread)
  · have hnone : ∀ s, ¬Holds payload s := fun s hs => htext ⟨s, hs⟩
    obtain ⟨flaw, hrun⟩ := decode_of_noText hnone
    rw [hrun]
    exact .noText hnone

/--
**What comes of a payload.**

A payload, of whatever text or octets, is decoded exactly if it is a document of which
every entry reports a log entry, and then as those. Otherwise it is refused in one of
the ways of `Outcome`: with a fault of the feed's own, because it is no document or
because the first entry that reports nothing misuses a field or has a position that
denotes none; or with a fault of others. The payloads that end so are exactly those of
`Strays`.
-/
theorem decoded_or_strays (payload : Delivery) :
    (∀ es, decode payload = .ok es ↔ ∃ l, Lists payload l ∧ List.Forall₂ ReportsOne l es)
    ∧ Outcome payload (decode payload)
    ∧ ((∃ f, decode payload = .error f ∧ f.family.isOwn = false) ↔ Strays payload) := by
  refine ⟨fun es => ⟨fun hrun => ?_, ?_⟩, decode_outcome payload, ?_, ?_⟩
  · have houtcome := decode_outcome payload
    rw [hrun] at houtcome
    cases houtcome with
    | entries hl hes => exact ⟨_, hl, hes⟩
  · rintro ⟨l, hl, hes⟩
    exact decode_of_reports hl hes
  · rintro ⟨f, hrun, hfamily⟩
    have houtcome := decode_outcome payload
    rw [hrun] at houtcome
    cases houtcome with
    | refused hl hpre hf =>
      cases hf with
      | misused _ => cases hfamily
      | misplaced _ _ => cases hfamily
      | overlong ho => exact .longPosition hl hpre ho
    | notJson _ _ => cases hfamily
    | longNumber hs hread _ => exact .longNumber hs hread
    | noText hnone => exact .noText hnone
  · intro hstrays
    cases hstrays with
    | noText hnone =>
      obtain ⟨flaw, hrun⟩ := decode_of_noText hnone
      exact ⟨_, hrun, rfl⟩
    | longNumber hs hread => exact ⟨_, decode_of_longNumber hs hread, rfl⟩
    | longPosition hl hpre ho =>
      exact ⟨_, decode_of_first hl hpre ho.entry, rfl⟩

/-- An entry whose position has a digit too many. -/
def longEntry : Json :=
  .record [("lsn", .text Json.longText), ("op", .text "insert"), ("table", .text "t")]

/-- **A fault of others.** The payload is a document, an entry with a table, a kind and a position,
but the position has too many digits, and what comes of it is no fault of the feed's own. -/
theorem long_position_strays : Json.read (Json.write longEntry) = .ok longEntry
    ∧ decode (.text (Json.write longEntry)) = .error (.argument (.longNumeral 4301))
    ∧ (Fault.argument (.longNumeral 4301)).family.isOwn = false := by
  have hread : Json.read (Json.write longEntry) = .ok longEntry := by
    refine Json.read_write_of_sorted (by decide) (by decide +kernel) ?_
    simp only [List.mem_cons, List.not_mem_nil, or_false, forall_eq_or_imp, forall_eq]
    exact ⟨⟨.text _, rfl⟩, ⟨.text _, rfl⟩, ⟨.text _, rfl⟩⟩
  have hlong : Overreaches longEntry 4301 := .position rfl rfl rfl Json.overlong_longText
  have hlists : Lists (.text (Json.write longEntry)) [longEntry] := ⟨_, _, rfl, hread, rfl⟩
  exact ⟨hread, (decode_of_lists hlists).trans (mapM_cons_error hlong.entry), rfl⟩

end Payload

end Changefeed
