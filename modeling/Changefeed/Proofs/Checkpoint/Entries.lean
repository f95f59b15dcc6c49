import Changefeed.Proofs.Checkpoint.Opening
import Changefeed.Proofs.Json.Flaws
import Changefeed.Proofs.Position.Spelling

/-!
# The entries of a checkpoint file

A file that holds a record is opened, and then tells of each stream by itself: its
position where the entry of its key denotes one, that the entry is bad where it
denotes none, and the null position where there is no entry. One kind of entry
gets in the way of all the others, a text that is a numeral with too many digits:
the file is opened exactly if it holds none (`opened_iff_short`). A whole number
with too many digits keeps a file from being read before it comes to its entries.
-/

namespace Changefeed.FileStore

variable {path : Path} {durable : Bool} {s : Logged Disk} {text : String}
  {entries fields : List (Text × Json)} {entry : Json} {store : FileStore}

/-! ## Taking an entry in -/

/-- **An entry** is taken for the position that it denotes, or for one that denotes none, unless it
is a text with too many digits. -/
theorem entryPosition_cases (hw : entry.isWritable = true) :
    (∃ p, entry.Denotes p ∧ (∀ k, ¬entry.Overlong k) ∧ entryPosition entry = .ok (some p))
      ∨ ((∀ p, ¬entry.Denotes p) ∧ (∀ k, ¬entry.Overlong k) ∧ entryPosition entry = .ok none)
      ∨ ∃ k, entry.Overlong k ∧ entryPosition entry = .error (.argument (.longNumeral k)) := by
  by_cases hnull : entry = .null
  · subst hnull
    exact .inr (.inl ⟨nofun, nofun, rfl⟩)
  have hread := Json.ofJson_cases hnull hw
  unfold entryPosition
  generalize Position.ofJson entry = r at hread ⊢
  cases entry with
  | mark m => exact nomatch m
  | null => exact absurd rfl hnull
  | float x => exact .inr (.inl ⟨nofun, nofun, rfl⟩)
  | list items => exact .inr (.inl ⟨nofun, nofun, rfl⟩)
  | record fields => exact .inr (.inl ⟨nofun, nofun, rfl⟩)
  | _ =>
    -- of a text, a number or a truth value what it denotes is all that counts
    rcases hread with ⟨p, hp, hshort, rfl⟩ | ⟨cause, hnone, hshort, rfl⟩ | ⟨k, hlong, rfl⟩
    · exact .inl ⟨p, hp, hshort, rfl⟩
    · exact .inr (.inl ⟨hnone, hshort, rfl⟩)
    · exact .inr (.inr ⟨k, hlong, rfl⟩)

theorem entryPosition_of_denotes {p : Position} (hw : entry.isWritable = true)
    (hp : entry.Denotes p) (hshort : ∀ k, ¬entry.Overlong k) :
    entryPosition entry = .ok (some p) := by
  rcases entryPosition_cases hw with ⟨q, hq, _, hrun⟩ | ⟨hnone, _⟩ | ⟨k, hlong, _⟩
  · rw [hrun, hp.unique hq]
  · exact absurd hp (hnone p)
  · exact absurd hlong (hshort k)

theorem entryPosition_of_none (hw : entry.isWritable = true) (hnone : ∀ p, ¬entry.Denotes p)
    (hshort : ∀ k, ¬entry.Overlong k) : entryPosition entry = .ok none := by
  rcases entryPosition_cases hw with ⟨q, hq, _⟩ | ⟨_, _, hrun⟩ | ⟨k, hlong, _⟩
  · exact absurd hq (hnone q)
  · exact hrun
  · exact absurd hlong (hshort k)

theorem entryPosition_of_overlong {k : Nat} (h : entry.Overlong k) :
    entryPosition entry = .error (.argument (.longNumeral k)) := by
  have hw : entry.isWritable = true := by
    cases h
    rfl
  rcases entryPosition_cases hw with ⟨_, _, hshort, _⟩ | ⟨_, hshort, _⟩ | ⟨k', hlong, hrun⟩
  · exact absurd h (hshort k)
  · exact absurd h (hshort k)
  · rw [hrun, h.unique hlong]

/-! ## Taking all of them in -/

theorem learned_cases (key : Text) (hw : entry.isWritable = true) (s : FileStore) :
    (∃ t, (∀ k, ¬entry.Overlong k) ∧ s.learned key entry = .ok t)
      ∨ ∃ k, entry.Overlong k ∧ s.learned key entry = .error (.argument (.longNumeral k)) := by
  unfold learned
  rcases entryPosition_cases hw with ⟨_, _, hshort, hrun⟩ | ⟨_, hshort, hrun⟩ | ⟨k, hlong, hrun⟩
  · rw [hrun]
    exact .inl ⟨_, hshort, rfl⟩
  · rw [hrun]
    exact .inl ⟨_, hshort, rfl⟩
  · rw [hrun]
    exact .inr ⟨k, hlong, rfl⟩

/-- Entries are taken in unless one of them is a text with too many digits; then none is. -/
theorem learnedAll_cases (hw : ∀ e ∈ entries, e.2.isWritable = true) (s : FileStore) :
    (∃ t, (∀ e ∈ entries, ∀ k, ¬e.2.Overlong k) ∧ s.learnedAll entries = .ok t)
      ∨ ∃ e ∈ entries, ∃ k, e.2.Overlong k
        ∧ s.learnedAll entries = .error (.argument (.longNumeral k)) := by
  induction entries generalizing s with
  | nil => exact .inl ⟨s, fun e he => absurd he List.not_mem_nil, rfl⟩
  | cons e rest ih =>
    have hall : s.learnedAll (e :: rest) = (s.learned e.1 e.2).bind fun t => t.learnedAll rest := by
      unfold learnedAll
      rw [List.foldlM_cons]
      rfl
    rw [hall]
    rcases learned_cases e.1 (hw e List.mem_cons_self) s with ⟨t, hfirst, hrun⟩ | ⟨k, hlong, hrun⟩
    · rw [hrun]
      rcases ih (fun e' he' => hw e' (List.mem_cons_of_mem _ he')) t with ⟨u, hshort, hrest⟩ | ⟨e', he', k, hlong, hrest⟩
      · refine .inl ⟨u, fun e' he' => ?_, hrest⟩
        rcases List.mem_cons.1 he' with rfl | he'
        · exact hfirst
        · exact hshort e' he'
      · exact .inr ⟨e', List.mem_cons_of_mem _ he', k, hlong, hrest⟩
    · rw [hrun]
      exact .inr ⟨e, List.mem_cons_self, k, hlong, rfl⟩

/-- What a store on a path tells of a stream whose entry in the file is this, if it has one. -/
def Tells (path : Path) (key : Text) (told : Except Fault Position) : Option Json → Prop
  | none => told = .ok .null
  | some entry => (∀ p, entry.Denotes p → told = .ok p)
      ∧ ((∀ p, ¬entry.Denotes p) → told = .error (.format (.badEntry entry key path.text)))

/-- **A store that has taken entries in** tells of each stream by the entry of its key alone. -/
theorem tells_of_learned (hd : (entries.map Prod.fst).Nodup)
    (hw : ∀ e ∈ entries, e.2.isWritable = true) (hshort : ∀ e ∈ entries, ∀ k, ¬e.2.Overlong k)
    (h : (blank path durable).learnedAll entries = .ok store) (key : Text) :
    Tells path key (store.load key) (Keyed.find key entries) := by
  obtain ⟨⟨hpath, _⟩, _, hget⟩ := learnedAll_spec hd h
  have hpositions : store.positions.get? key = (Keyed.find key entries).bind sequenceOf := by
    rw [(hget key).1]
    exact Option.or_none
  have hcorrupt : store.corrupt.get? key = (Keyed.find key entries).bind corruptOf := by
    rw [(hget key).2]
    exact Option.or_none
  cases hfind : Keyed.find key entries with
  | none =>
    rw [hfind] at hpositions hcorrupt
    exact load_eq_ok.2 ⟨hcorrupt, by rw [hpositions]; rfl⟩
  | some entry =>
    have hmem := (Keyed.find_eq_some_iff hd).1 hfind
    have hentry := hshort _ hmem
    rw [hfind, Option.bind_some] at hpositions hcorrupt
    refine ⟨fun p hp => ?_, fun hnone => ?_⟩
    · have hread := entryPosition_of_denotes (hw _ hmem) hp hentry
      rw [sequenceOf_eq hread] at hpositions
      rw [corruptOf_eq hread] at hcorrupt
      refine load_eq_ok.2 ⟨hcorrupt, ?_⟩
      rw [hpositions]
      cases p <;> rfl
    · have hread := entryPosition_of_none (hw _ hmem) hnone hentry
      rw [corruptOf_eq hread, if_pos rfl] at hcorrupt
      rw [load_of_corrupt hcorrupt, hpath]
      rfl

/-! ## Opening the file -/

/-- Opening the path of a file reads its text and takes the entries in. It leaves the disk alone. -/
theorem openAt_of_text (durable : Bool) (hc : s.state.content? path = some (.text text)) :
    ∃ ns, openAt path durable s = match (parse path text).bind (blank path durable).learnedAll with
      | .ok store => .ok store ⟨s.state, ns⟩
      | .error f => .error f ⟨s.state, ns⟩ := by
  have hready : Ready path s.state := ready_of_content? hc
  obtain ⟨ns, hrun⟩ := openAt_of_ready durable hready
  rw [← content?_of_ready hready, hc] at hrun
  exact ⟨ns, hrun⟩

theorem parse_of_record (hread : Json.read text = .ok (.record fields)) :
    parse path text = .ok fields := by
  unfold parse
  rw [if_neg, hread]
  intro hblank
  rw [Json.read_of_blank hblank] at hread
  cases hread

theorem parse_of_longNumeral {k : Nat} (hread : Json.read text = .error (.longNumeral k)) :
    parse path text = .error (.argument (.longNumeral k)) := by
  unfold parse
  rw [if_neg, hread]
  intro hblank
  rw [Json.read_of_blank hblank] at hread
  cases hread

/-- Opening the path of a file with a record comes down to taking its entries in. -/
theorem openAt_of_record (durable : Bool) (hc : s.state.content? path = some (.text text))
    (hread : Json.read text = .ok (.record fields)) :
    ∃ ns, openAt path durable s = match (blank path durable).learnedAll fields with
      | .ok store => .ok store ⟨s.state, ns⟩
      | .error f => .error f ⟨s.state, ns⟩ := by
  obtain ⟨ns, hrun⟩ := openAt_of_text durable hc
  rw [parse_of_record hread] at hrun
  exact ⟨ns, hrun⟩

/--
**The entries of a file and the streams.**

There is a file at a path. If it holds a record, whatever the entries in it are, the
path can be opened exactly if none of them is a text that is a numeral with too many
digits. The store then tells of each stream by the entry of its key alone: the
position that the entry denotes, or that the entry is bad if it denotes none. If the
path cannot be opened, it is for one of the entries with too many digits. A file in
which a whole number has too many digits cannot be opened either, and then there is
a run of so many digits in it. Nothing of this changes the disk.
-/
theorem opened_iff_short (durable : Bool) (hc : s.state.content? path = some (.text text)) :
    (∀ fields : List (Text × Json), Json.read text = .ok (.record fields) →
      ((∃ store t, openAt path durable s = .ok store t) ↔ ∀ e ∈ fields, ∀ k, ¬e.2.Overlong k)
        ∧ (∀ store t, openAt path durable s = .ok store t → t.state = s.state
          ∧ ∀ key, Tells path key (store.load key) (Keyed.find key fields))
        ∧ ∀ f t, openAt path durable s = .error f t → t.state = s.state
          ∧ ∃ e ∈ fields, ∃ k, e.2.Overlong k ∧ f = .argument (.longNumeral k))
    ∧ ∀ k, Json.read text = .error (.longNumeral k) → Json.HasLongRun text.toList k
      ∧ ∃ t, openAt path durable s = .error (.argument (.longNumeral k)) t ∧ t.state = s.state := by
  refine ⟨fun fields hread => ?_, fun k hread => ?_⟩
  · obtain ⟨ns, hrun⟩ := openAt_of_record durable hc hread
    have hparse : parse path text = .ok fields := parse_of_record hread
    obtain ⟨hdistinct, hreadable⟩ := parse_readable hparse
    have hwritable : ∀ e ∈ fields, e.2.isWritable = true := fun e he => (hreadable e he).isWritable
    rcases learnedAll_cases hwritable (blank path durable) with
      ⟨store, hshort, hall⟩ | ⟨e, he, k, hlong, hall⟩
    · rw [hall] at hrun
      rw [hrun]
      refine ⟨⟨fun _ => hshort, fun _ => ⟨store, _, rfl⟩⟩, ?_, nofun⟩
      rintro _ _ ⟨⟩
      exact ⟨rfl, tells_of_learned hdistinct hwritable hshort hall⟩
    · rw [hall] at hrun
      rw [hrun]
      refine ⟨⟨nofun, fun hshort => absurd hlong (hshort e he k)⟩, nofun, ?_⟩
      rintro _ _ ⟨⟩
      exact ⟨rfl, e, he, k, hlong, rfl⟩
  · obtain ⟨ns, hrun⟩ := openAt_of_text durable hc
    rw [parse_of_longNumeral hread] at hrun
    exact ⟨Json.hasLongRun_of_read hread, _, hrun, rfl⟩

/-- A disk with a record in a checkpoint file. -/
def recordDisk (fields : List (Text × Json)) : Disk where
  nodes := Keyed.ofList [(⟨false, ["resume.json"]⟩, .file (.text (Json.write (.record fields))))]
  plan := .none
  syncs := 0

/-- Four entries in a file. Two denote the null position, one denotes none, and that one is bad for
its own stream and no other. -/
theorem opened_with_bad_entry :
    let fields : List (Text × Json) :=
      [("a", .text "5"), ("b", .int (-3)), ("c", .list [.bool true]), ("d", .text " null ")]
    ∃ store t, openAt ⟨.here, ["resume.json"]⟩ false ⟨recordDisk fields, []⟩ = .ok store t
      ∧ store.load "a" = .ok (.known 5) ∧ store.load "b" = .ok .null
      ∧ store.load "c" = .error (.format (.badEntry (.list [.bool true]) "c" "resume.json"))
      ∧ store.load "d" = .ok .null ∧ store.load "e" = .ok .null := by
  intro fields
  have hread : Json.read (Json.write (.record fields)) = .ok (.record fields) := by
    refine Json.read_write_of_sorted (by decide) (by decide +kernel) ?_
    simp only [fields, List.mem_cons, List.not_mem_nil, or_false, forall_eq_or_imp, forall_eq]
    exact ⟨⟨.text _, rfl⟩, ⟨.int _ (by decide), rfl⟩, ⟨.list _ (by simpa using .bool true), rfl⟩,
      ⟨.text _, rfl⟩⟩
  have hfile : (recordDisk fields).content? ⟨.here, ["resume.json"]⟩ =
      some (.text (Json.write (.record fields))) := rfl
  have hrecord := (opened_iff_short (s := ⟨recordDisk fields, []⟩) false hfile).1 fields hread
  have hshort : ∀ e ∈ fields, ∀ k, ¬Json.Overlong e.2 k := by
    simp only [fields, List.mem_cons, List.not_mem_nil, or_false, forall_eq_or_imp, forall_eq]
    refine ⟨Json.not_overlong_of_length_le (by decide), ?_, ?_,
      Json.not_overlong_of_length_le (by decide)⟩
    · rintro k ⟨⟩
    · rintro k ⟨⟩
  obtain ⟨store, t, hopen⟩ := hrecord.1.2 hshort
  have htells := (hrecord.2.1 store t hopen).2
  refine ⟨store, t, hopen, (htells "a").1 _ ?_, (htells "b").1 _ ?_, (htells "c").2 ?_,
    (htells "d").1 _ ?_, htells "e"⟩
  · exact Json.denotes_text (.known 5)
  · exact .number (.null (by decide) (by decide))
  · rintro p ⟨⟩
  · exact .word rfl (by decide)

/-- Two entries, one of them with a digit too many. -/
def longEntries : List (Text × Json) := [("a", .text Json.longText), ("b", .text "5")]

/-- **One entry bars the others.** The file holds a record, and the entry of `b` denotes the
position 5, but the path cannot be opened, because the entry of `a` has too many digits. -/
theorem long_entry_bars_others :
    Json.read (Json.write (.record longEntries)) = .ok (.record longEntries)
      ∧ Json.Denotes (.text "5") (.known 5)
      ∧ ∃ t, openAt ⟨.here, ["resume.json"]⟩ false ⟨recordDisk longEntries, []⟩ =
        .error (.argument (.longNumeral 4301)) t := by
  have hread : Json.read (Json.write (.record longEntries)) = .ok (.record longEntries) := by
    refine Json.read_write_of_sorted (by decide) (by decide +kernel) ?_
    simp only [longEntries, List.mem_cons, List.not_mem_nil, or_false, forall_eq_or_imp, forall_eq]
    exact ⟨⟨.text _, rfl⟩, ⟨.text _, rfl⟩⟩
  refine ⟨hread, Json.denotes_text (.known 5), ?_⟩
  have hfile : (recordDisk longEntries).content? ⟨.here, ["resume.json"]⟩ =
      some (.text (Json.write (.record longEntries))) := rfl
  obtain ⟨ns, hrun⟩ := openAt_of_record (s := ⟨recordDisk longEntries, []⟩) false hfile hread
  have hall : (blank ⟨.here, ["resume.json"]⟩ false).learnedAll longEntries =
      .error (.argument (.longNumeral 4301)) := by
    unfold learnedAll longEntries
    rw [List.foldlM_cons]
    unfold learned
    rw [entryPosition_of_overlong Json.overlong_longText]
    rfl
  rw [hall] at hrun
  exact ⟨_, hrun⟩

end Changefeed.FileStore
