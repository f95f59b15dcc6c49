import Changefeed.Checkpoint.File
import Changefeed.Proofs.Action
import Changefeed.Proofs.Json.RoundTrip
import Changefeed.Proofs.Text.Decimal

/-!
# What a checkpoint file says

A store that reads a file takes its entries in one by one (`learnedAll`), and
knows afterwards under each key what the entry of that key denotes
(`learnedAll_spec`). What a store writes denotes what it knows: a store that reads
it knows the same positions, and the same corrupt entries but for the order of
the fields in them (`reread`).
-/

namespace Changefeed.FileStore

/-! ## Taking entries in -/

/-- The store with one more entry of the file. -/
def learned (s : FileStore) (key : Text) (entry : Json) : Except Fault FileStore :=
  (entryPosition entry).map fun
    | some .null => s
    | some (.known n) => { s with positions := s.positions.insert key n }
    | none => { s with corrupt := s.corrupt.insert key entry }

/-- The store with some more entries, in their order. -/
def learnedAll (s : FileStore) (entries : List (Text × Json)) : Except Fault FileStore :=
  entries.foldlM (fun s e => s.learned e.1 e.2) s

theorem learn_run (key : Text) (entry : Json) (s : Logged FileStore) :
    ∃ ns, learn key entry s = match s.state.learned key entry with
      | .ok t => .ok () ⟨t, ns⟩
      | .error f => .error f ⟨s.state, ns⟩ := by
  have hrun : learn key entry s = (Act.ofExcept (entryPosition entry) >>= fun
      | some .null => pure ()
      | some (.known n) => Act.update fun s => { s with positions := s.positions.insert key n }
      | none => Act.state >>= fun s => Act.note (.badEntry entry key s.path.text) >>= fun _ =>
          Act.update fun s => { s with corrupt := s.corrupt.insert key entry }) s := rfl
  rw [hrun]
  unfold learned
  rcases entryPosition entry with f | (_ | _ | n)
  · exact ⟨s.notices, rfl⟩
  · exact ⟨_, rfl⟩
  · exact ⟨s.notices, rfl⟩
  · exact ⟨s.notices, rfl⟩

theorem learnAll_run (entries : List (Text × Json)) (s : Logged FileStore) :
    ∃ ns, match s.state.learnedAll entries with
      | .ok t => entries.forM (fun e => learn e.1 e.2) s = .ok () ⟨t, ns⟩
      | .error f => ∃ t, entries.forM (fun e => learn e.1 e.2) s = .error f ⟨t, ns⟩ := by
  induction entries generalizing s with
  | nil => exact ⟨s.notices, rfl⟩
  | cons e rest ih =>
    obtain ⟨ns, hl⟩ := learn_run e.1 e.2 s
    have hrun : (e :: rest).forM (fun e => learn e.1 e.2) s =
        (learn e.1 e.2 >>= fun _ => rest.forM fun e => learn e.1 e.2) s := rfl
    have hall : s.state.learnedAll (e :: rest) =
        (s.state.learned e.1 e.2).bind fun t => t.learnedAll rest := by
      unfold learnedAll
      rw [List.foldlM_cons]
      rfl
    rw [hall, hrun]
    cases hs : s.state.learned e.1 e.2 with
    | error f =>
      rw [hs] at hl
      exact ⟨ns, s.state, Act.bind_of_error hl⟩
    | ok t =>
      rw [hs] at hl
      obtain ⟨ns', h⟩ := ih ⟨t, ns⟩
      rw [Act.bind_of_ok hl]
      exact ⟨ns', h⟩

/-! ## What entries denote -/

/-- The sequence that an entry denotes, if it denotes one. -/
def sequenceOf (entry : Json) : Option Sequence :=
  match entryPosition entry with
  | .ok (some (.known n)) => some n
  | _ => none

/-- An entry that denotes no position. -/
def corruptOf (entry : Json) : Option Json :=
  match entryPosition entry with
  | .ok none => some entry
  | _ => none

theorem sequenceOf_eq {entry : Json} {o : Option Position} (h : entryPosition entry = .ok o) :
    sequenceOf entry = o.bind Position.known? := by
  unfold sequenceOf
  rw [h]
  rcases o with _ | _ | n <;> rfl

theorem corruptOf_eq {entry : Json} {o : Option Position} (h : entryPosition entry = .ok o) :
    corruptOf entry = if o = none then some entry else none := by
  unfold corruptOf
  rw [h]
  rcases o with _ | p <;> rfl

/-- Taking entries in fails only for one that makes reading the file fail. -/
theorem learnedAll_ok {entries : List (Text × Json)}
    (h : ∀ e ∈ entries, ∃ o, entryPosition e.2 = .ok o) (s : FileStore) :
    ∃ t, s.learnedAll entries = .ok t := by
  induction entries generalizing s with
  | nil => exact ⟨s, rfl⟩
  | cons e rest ih =>
    obtain ⟨o, ho⟩ := h e List.mem_cons_self
    have hrest := fun s => ih (fun e he => h e (List.mem_cons_of_mem _ he)) s
    unfold learnedAll at hrest ⊢
    rw [List.foldlM_cons]
    unfold learned
    rw [ho]
    exact hrest _

/-- What a store knows after it took one entry in. -/
theorem learned_spec {key : Text} {entry : Json} {s t : FileStore} (h : s.learned key entry = .ok t) :
    (t.path = s.path ∧ t.durable = s.durable) ∧ (∃ o, entryPosition entry = .ok o)
      ∧ ∀ k, t.positions.get? k = (if key = k then sequenceOf entry else none).or (s.positions.get? k)
        ∧ t.corrupt.get? k = (if key = k then corruptOf entry else none).or (s.corrupt.get? k) := by
  unfold learned at h
  cases ho : entryPosition entry with
  | error f => rw [ho] at h; cases h
  | ok o =>
    rw [ho] at h
    rw [sequenceOf_eq ho, corruptOf_eq ho]
    rcases o with _ | _ | n <;> cases h <;> refine ⟨⟨rfl, rfl⟩, ⟨_, rfl⟩, fun k => ?_⟩
    · refine ⟨by split <;> rfl, ?_⟩
      show (s.corrupt.insert key entry).get? k = _
      rw [Keyed.get?_insert, if_pos rfl]
      split <;> rfl
    · exact ⟨by split <;> rfl, by split <;> rfl⟩
    · refine ⟨?_, by split <;> rfl⟩
      show (s.positions.insert key n).get? k = _
      rw [Keyed.get?_insert]
      split <;> rfl

/-- **What a store knows of entries**: under each key what the entry of that key denotes. -/
theorem learnedAll_spec {entries : List (Text × Json)} (hd : (entries.map Prod.fst).Nodup)
    {s t : FileStore} (h : s.learnedAll entries = .ok t) :
    (t.path = s.path ∧ t.durable = s.durable) ∧ (∀ e ∈ entries, ∃ o, entryPosition e.2 = .ok o)
      ∧ ∀ k, t.positions.get? k = ((Keyed.find k entries).bind sequenceOf).or (s.positions.get? k)
        ∧ t.corrupt.get? k = ((Keyed.find k entries).bind corruptOf).or (s.corrupt.get? k) := by
  induction entries generalizing s with
  | nil =>
    cases h
    exact ⟨⟨rfl, rfl⟩, fun e he => absurd he List.not_mem_nil, fun k => ⟨rfl, rfl⟩⟩
  | cons e rest ih =>
    obtain ⟨key, entry⟩ := e
    rw [List.map_cons, List.nodup_cons] at hd
    unfold learnedAll at h ih
    rw [List.foldlM_cons] at h
    cases hs : s.learned key entry with
    | error f => rw [hs] at h; cases h
    | ok u =>
      rw [hs] at h
      obtain ⟨⟨hpath, hdurable⟩, hok, hrest⟩ := ih hd.2 h
      obtain ⟨⟨hpath', hdurable'⟩, hok', hfirst⟩ := learned_spec hs
      refine ⟨⟨hpath.trans hpath', hdurable.trans hdurable'⟩, ?_, fun k => ?_⟩
      · intro e he
        rcases List.mem_cons.1 he with rfl | he
        · exact hok'
        · exact hok e he
      · rw [(hrest k).1, (hrest k).2, (hfirst k).1, (hfirst k).2, Keyed.find]
        by_cases hk : key = k
        · rw [if_pos hk, if_pos hk, if_pos hk, (Keyed.find_eq_none_iff k rest).2 (hk ▸ hd.1)]
          exact ⟨rfl, rfl⟩
        · rw [if_neg hk, if_neg hk, if_neg hk]
          exact ⟨rfl, rfl⟩

/-! ## What a store writes -/

/-- A store as reading a file and calls can leave it: the corrupt entries are some, they can be
written, and none of them hides a position. -/
structure Sound (s : FileStore) : Prop where
  corrupt : ∀ e ∈ s.corrupt.toList, entryPosition e.2 = .ok none
  readable : ∀ e ∈ s.corrupt.toList, Json.Readable e.2
  apart : ∀ k, s.corrupt.get? k = none ∨ s.positions.get? k = none

/-- The entries of a text have distinct keys and can be written again. -/
theorem parse_readable {path : Path} {text : String} {entries : List (Text × Json)}
    (h : parse path text = .ok entries) :
    (entries.map Prod.fst).Nodup ∧ ∀ e ∈ entries, Json.Readable e.2 := by
  unfold parse at h
  split at h
  · cases h
    exact ⟨List.nodup_nil, fun e he => absurd he List.not_mem_nil⟩
  · split at h
    · rename_i hread
      cases h
      cases Json.Readable.of_read hread with
      | record _ hd hr => exact ⟨hd, hr⟩
    · cases h
    · cases h
    · cases h

theorem corruptOf_eq_some {entry e : Json} (h : corruptOf entry = some e) :
    entryPosition e = .ok none ∧ sequenceOf e = none ∧ e = entry := by
  unfold corruptOf at h
  unfold sequenceOf
  split at h
  · rename_i ho
    cases h
    exact ⟨ho, by rw [ho], rfl⟩
  · cases h

theorem Sound.blank (path : Path) (durable : Bool) : Sound (blank path durable) :=
  ⟨fun _ he => absurd he List.not_mem_nil, fun _ he => absurd he List.not_mem_nil, fun _ => .inl rfl⟩

/-- A store that has just read a file is sound. -/
theorem Sound.of_learned {path : Path} {durable : Bool} {entries : List (Text × Json)}
    {t : FileStore} (hd : (entries.map Prod.fst).Nodup) (hr : ∀ e ∈ entries, Json.Readable e.2)
    (h : (FileStore.blank path durable).learnedAll entries = .ok t) : t.Sound := by
  obtain ⟨_, _, hget⟩ := learnedAll_spec hd h
  have hcorrupt : ∀ k e, t.corrupt.get? k = some e →
      Keyed.find k entries = some e ∧ entryPosition e = .ok none ∧ sequenceOf e = none := by
    intro k e hk
    rw [(hget k).2] at hk
    cases hf : Keyed.find k entries with
    | none => rw [hf] at hk; cases hk
    | some x =>
      rw [hf] at hk
      have hx : corruptOf x = some e := by
        cases hc : corruptOf x with
        | none => simp only [Option.bind_some, hc] at hk; cases hk
        | some y => simp only [Option.bind_some, hc, Option.some_or] at hk; exact hk
      obtain ⟨ho, hs, rfl⟩ := corruptOf_eq_some hx
      exact ⟨rfl, ho, hs⟩
  refine ⟨fun e he => ?_, fun e he => ?_, fun k => ?_⟩
  · exact (hcorrupt e.1 e.2 ((Keyed.get?_eq_some_iff _).2 he)).2.1
  · have hf := (hcorrupt e.1 e.2 ((Keyed.get?_eq_some_iff _).2 he)).1
    exact hr e ((Keyed.find_eq_some_iff hd).1 hf)
  · cases hc : t.corrupt.get? k with
    | none => exact .inl rfl
    | some e =>
      obtain ⟨hf, _, hs⟩ := hcorrupt k e hc
      refine .inr ?_
      rw [(hget k).1, hf, Option.bind_some, hs]
      rfl

theorem Sound.set {s : FileStore} (hs : s.Sound) {key : Text} (h : s.corrupt.get? key = none)
    (o : Option Sequence) : Sound { s with positions := s.positions.set key o } := by
  refine ⟨hs.corrupt, hs.readable, fun k => ?_⟩
  rcases hs.apart k with hk | hk
  · exact .inl hk
  by_cases hkey : key = k
  · exact .inl (hkey ▸ h)
  · refine .inr ?_
    cases o with
    | none => exact (Keyed.get?_erase_of_ne _ hkey).trans hk
    | some n => exact (Keyed.get?_insert_of_ne _ hkey n).trans hk

theorem Sound.discard {s : FileStore} (hs : s.Sound) (key : Text) :
    Sound { s with corrupt := s.corrupt.erase key } := by
  have hmem : ∀ e ∈ (s.corrupt.erase key).toList, e ∈ s.corrupt.toList := fun e he =>
    (Keyed.drop_sublist key s.corrupt.toList).subset he
  refine ⟨fun e he => hs.corrupt e (hmem e he), fun e he => hs.readable e (hmem e he), fun k => ?_⟩
  rcases hs.apart k with hk | hk
  · left
    show (s.corrupt.erase key).get? k = none
    rw [Keyed.get?_erase]
    split
    · rfl
    · exact hk
  · exact .inr hk

/-- Reading an entry does not look at what is inside a list or a record. -/
theorem entryPosition_normal (entry : Json) : entryPosition (Json.normal entry) = entryPosition entry := by
  cases entry with
  | mark m => exact m.elim
  | _ => rfl

theorem ofJson_text (t : Text) : Position.ofJson (.text t) = Position.ofText t := rfl

theorem entryPosition_text (p : Position) : entryPosition (.text p.text) = .ok (some p) := by
  unfold entryPosition
  dsimp only
  rw [ofJson_text, Position.ofText_text]

/-- The fields of the document of a store. -/
def fields (s : FileStore) : Keyed Text Json :=
  s.corrupt.insertMany (s.positions.toList.map fun e => (e.1, .text (Position.known e.2).text))

theorem get?_fields (s : FileStore) (k : Text) :
    s.fields.get? k =
      ((s.positions.get? k).map fun n => .text (Position.known n).text).or (s.corrupt.get? k) := by
  have hd : ((s.positions.toList.map fun e : Text × Sequence =>
      (e.1, (Data.text (Position.known e.2).text : Json))).map Prod.fst).Nodup := by
    rw [List.map_map]
    exact s.positions.nodup
  unfold fields
  rw [Keyed.get?_insertMany _ hd,
    Keyed.find_map (fun n => (Data.text (Position.known n).text : Json)) k s.positions.toList]
  rfl

theorem mem_fields {s : FileStore} {e : Text × Json} (h : e ∈ s.fields.toList) :
    e ∈ s.corrupt.toList ∨ ∃ n, e.2 = .text (Position.known n).text := by
  rcases Keyed.mem_insertMany h with h | h
  · exact .inl h
  · obtain ⟨f, _, rfl⟩ := List.mem_map.1 h
    exact .inr ⟨f.2, rfl⟩

/-- The document of a store can be read. -/
theorem Sound.document_readable {s : FileStore} (hs : s.Sound) : Json.Readable s.document := by
  refine .record _ s.fields.nodup fun e he => ?_
  rcases mem_fields he with h | ⟨n, h⟩
  · exact hs.readable e h
  · rw [h]
    exact .text _

theorem isBlankText_write (s : FileStore) : Text.isBlankText (Json.write s.document) = false := by
  unfold Json.write Text.isBlankText
  rw [String.toList_ofList]
  show (Json.writeValue (.record s.fields.toList)).all Text.isBlank = false
  rw [Json.writeValue_record]
  rfl

/-- The entries of the text that a store writes. -/
def entriesWritten (s : FileStore) : List (Text × Json) :=
  (Json.sortFields s.fields.toList).map fun e => (e.1, Json.normal e.2)

theorem parse_write {s : FileStore} (hs : s.Sound) (path : Path) :
    parse path (Json.write s.document) = .ok s.entriesWritten := by
  have hnormal : Json.normal s.document = .record s.entriesWritten := Json.normal_record s.fields.toList
  unfold parse
  rw [isBlankText_write, if_neg (by simp), Json.read_write hs.document_readable, hnormal]

theorem nodup_entriesWritten (s : FileStore) : (s.entriesWritten.map Prod.fst).Nodup := by
  have hperm := (Json.sortFields_perm s.fields.toList).map Prod.fst
  unfold entriesWritten
  rw [List.map_map]
  exact hperm.nodup_iff.2 s.fields.nodup

theorem find_entriesWritten (s : FileStore) (k : Text) :
    Keyed.find k s.entriesWritten = (s.fields.get? k).map Json.normal := by
  have hperm := Json.sortFields_perm s.fields.toList
  have hd := (hperm.map Prod.fst).nodup_iff.2 s.fields.nodup
  unfold entriesWritten
  rw [Keyed.find_map]
  exact congrArg _ (Keyed.find_perm hperm hd k)

/-- None of the entries makes reading the file fail. -/
theorem Sound.entriesWritten_ok {s : FileStore} (hs : s.Sound) :
    ∀ e ∈ s.entriesWritten, ∃ o, entryPosition e.2 = .ok o := by
  intro e he
  obtain ⟨f, hf, rfl⟩ := List.mem_map.1 he
  rw [entryPosition_normal]
  rcases mem_fields ((Json.sortFields_perm s.fields.toList).mem_iff.1 hf) with h | ⟨n, h⟩
  · exact ⟨_, hs.corrupt f h⟩
  · rw [h]
    exact ⟨_, entryPosition_text _⟩

/-- What is written under a key denotes what the store knows under it. -/
theorem Sound.denoted {s : FileStore} (hs : s.Sound) (k : Text) :
    (Keyed.find k s.entriesWritten).bind sequenceOf = s.positions.get? k
      ∧ (Keyed.find k s.entriesWritten).bind corruptOf = (s.corrupt.get? k).map Json.normal := by
  rw [find_entriesWritten, get?_fields]
  cases hp : s.positions.get? k with
  | some n =>
    have hc : s.corrupt.get? k = none := (hs.apart k).resolve_right (by simp [hp])
    have htext := entryPosition_text (.known n)
    rw [← entryPosition_normal] at htext
    rw [hc, Option.map_some, Option.or_none, Option.map_some, Option.bind_some, Option.bind_some,
      sequenceOf_eq htext, corruptOf_eq htext]
    exact ⟨rfl, rfl⟩
  | none =>
    cases hc : s.corrupt.get? k with
    | none => exact ⟨rfl, rfl⟩
    | some e =>
      have hpos := hs.corrupt _ ((Keyed.get?_eq_some_iff _).1 hc)
      rw [← entryPosition_normal] at hpos
      rw [Option.map_none, Option.none_or, Option.map_some, Option.bind_some, Option.bind_some,
        sequenceOf_eq hpos, corruptOf_eq hpos]
      exact ⟨rfl, rfl⟩

/--
**What a store writes denotes what it knows.** A store that reads it has the same
positions, and the same corrupt entries with the fields in them in order.
-/
theorem reread {s : FileStore} (hs : s.Sound) (path : Path) (durable : Bool) :
    ∃ entries t, parse path (Json.write s.document) = .ok entries
      ∧ (blank path durable).learnedAll entries = .ok t
      ∧ ∀ k, t.positions.get? k = s.positions.get? k
        ∧ t.corrupt.get? k = (s.corrupt.get? k).map Json.normal := by
  obtain ⟨t, ht⟩ := learnedAll_ok hs.entriesWritten_ok (blank path durable)
  refine ⟨s.entriesWritten, t, parse_write hs path, ht, fun k => ?_⟩
  obtain ⟨_, _, hget⟩ := learnedAll_spec s.nodup_entriesWritten ht
  obtain ⟨hpositions, hcorrupt⟩ := hs.denoted k
  -- the store that reads began with nothing of its own
  have hblank : (blank path durable).positions.get? k = none
      ∧ (blank path durable).corrupt.get? k = none := ⟨rfl, rfl⟩
  rw [(hget k).1, (hget k).2, hpositions, hcorrupt, hblank.1, hblank.2]
  exact ⟨Option.or_none, Option.or_none⟩

end Changefeed.FileStore
