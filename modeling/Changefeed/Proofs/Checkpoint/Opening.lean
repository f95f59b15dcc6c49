import Changefeed.Proofs.Checkpoint.Calls
import Changefeed.Proofs.Checkpoint.Content
import Changefeed.Proofs.Disk.Replace

/-!
# Opening a checkpoint file

A store that is opened on a path knows what the file there says (`openAt_ok`),
and the directory that the file is in is there from then on (`Ready`), so that
opening the path again reads the file and does nothing else (`openAt_of_ready`).
What the file says of a stream is thus a matter of the disk alone
(`recorded`).
-/

namespace Changefeed

/-- What the file at a path holds, once its way is there. -/
def Disk.contentAt (d : Disk) (p : Path) : Option Content :=
  if p.hasNull then none
  else
    match d.nodes.get? p.target with
    | some (.file c) => some c
    | _ => none

namespace FileStore

/-- The store that has read a file. -/
def ofContent (path : Path) (durable : Bool) : Option Content → Except Fault FileStore
  | none => .ok (blank path durable)
  | some (.octets _ flaw) => .error (.encoding flaw)
  | some (.text s) => (parse path s).bind fun entries => (blank path durable).learnedAll entries

/-- The position of a stream in the file at a path. -/
def recorded (path : Path) (key : Text) (d : Disk) : Except Fault Position :=
  (ofContent path false (d.contentAt path)).bind fun s => s.load key

/-- The directory of a path is there, and no directory is where the path leads. -/
structure Ready (path : Path) (d : Disk) : Prop where
  parent : d.HasDirectory path.parent
  file : path.hasNull = true ∨ d.locate path = .ok path.target ∧ d.node? path.target ≠ some .directory

/-- Where the way to a path is there, what the file holds is found by following it. -/
theorem content?_of_ready {path : Path} {d : Disk} (h : Ready path d) :
    d.content? path = d.contentAt path := by
  unfold Disk.content? Disk.contentAt
  cases hnull : path.hasNull with
  | true =>
    rw [Disk.locate_of_null hnull, if_pos rfl]
  | false =>
    obtain ⟨hl, hd⟩ := h.file.resolve_left (by simp [hnull])
    have hget := Disk.node?_of_not_fixed (d := d) (Disk.not_fixed_of_not_directory hd)
    rcases hn : d.node? path.target with _ | _ | c
    all_goals
      rw [hn] at hget
      simp [hl, hn, ← hget]

/-- A file that can be found is in a directory. -/
theorem ready_of_content? {path : Path} {d : Disk} {c : Content} (h : d.content? path = some c) :
    Ready path d := by
  unfold Disk.content? at h
  cases hl : d.locate path with
  | error f => rw [hl] at h; cases h
  | ok l =>
    obtain rfl := Disk.eq_target hl
    have hd : d.node? path.target ≠ some .directory := by
      intro hd
      rw [hl] at h
      dsimp only at h
      rw [hd] at h
      cases h
    exact ⟨Disk.hasDirectory_parent hl hd, .inr ⟨hl, hd⟩⟩

/-! ## Reading the file -/

/-- A file that is there is read; what is not there is read as nothing. -/
theorem readText?_of_ready {path : Path} {d : Disk} (h : Ready path d) :
    d.readText? path = match d.contentAt path with
      | none => .ok none
      | some (.octets _ flaw) => .error (.encoding flaw)
      | some (.text s) => .ok (some s) := by
  unfold Disk.readText?
  cases hnull : path.hasNull with
  | true =>
    -- no disk knows such a path, and asking for it finds nothing
    have hfind : d.find? path = .ok none := by
      unfold Disk.find?
      rw [Disk.locate_of_null hnull]
    rw [hfind]
    unfold Disk.contentAt
    rw [if_pos hnull]
    rfl
  | false =>
    obtain ⟨hl, hd⟩ := h.file.resolve_left (by simp [hnull])
    have hfind : d.find? path = .ok (d.node? path.target) := by
      unfold Disk.find?
      rw [hl]
    have hfixed : path.target.isFixed = false := Disk.not_fixed_of_not_directory hd
    rw [hfind]
    unfold Disk.contentAt
    rw [hnull, if_neg (by simp), ← Disk.node?_of_not_fixed hfixed]
    rcases hn : d.node? path.target with _ | _ | _ | _
    · rfl
    · exact absurd hn hd
    · rfl
    · rfl

/-- What opening a path does once the directory is there. -/
def readFile (path : Path) (durable : Bool) (d : Disk) : Act Disk FileStore := do
  match ← Act.ofExcept (d.readText? path) with
  | none => return blank path durable
  | some text =>
    let entries ← Act.ofExcept (parse path text)
    let (_, store) ← Act.apart (blank path durable) (entries.forM fun e => learn e.1 e.2)
    return store

theorem openAt_of_ensured {path : Path} {durable : Bool} {s u : Logged Disk}
    (h : Disk.ensureDirectory path.parent s = .ok () u) :
    openAt path durable s = readFile path durable u.state u :=
  Act.bind_of_ok h

theorem readFile_of_ready {path : Path} (durable : Bool) {s : Logged Disk}
    (h : Ready path s.state) :
    ∃ ns, readFile path durable s.state s =
      match ofContent path durable (s.state.contentAt path) with
      | .ok store => .ok store ⟨s.state, ns⟩
      | .error f => .error f ⟨s.state, ns⟩ := by
  unfold readFile
  rw [readText?_of_ready h]
  rcases s.state.contentAt path with _ | text | _
  · exact ⟨s.notices, rfl⟩
  · show ∃ ns, (Act.ofExcept (parse path text) >>= fun entries =>
      Act.apart (blank path durable) (entries.forM fun e => learn e.1 e.2) >>= fun r =>
      pure r.2) s = match (parse path text).bind fun entries =>
        (blank path durable).learnedAll entries with
      | .ok store => .ok store ⟨s.state, ns⟩
      | .error f => .error f ⟨s.state, ns⟩
    cases parse path text with
    | error f => exact ⟨s.notices, rfl⟩
    | ok entries =>
      -- the entries are taken in apart, by a store that is no state yet
      obtain ⟨ns, h⟩ := learnAll_run entries ⟨blank path durable, s.notices⟩
      refine ⟨ns, ?_⟩
      show (Act.apart (blank path durable) (entries.forM fun e => learn e.1 e.2) >>= fun r =>
        pure r.2) s = match (blank path durable).learnedAll entries with
        | .ok store => .ok store ⟨s.state, ns⟩
        | .error f => .error f ⟨s.state, ns⟩
      rw [Act.bind_run]
      unfold Act.apart
      dsimp only at h
      cases hl : (blank path durable).learnedAll entries with
      | ok store =>
        rw [hl] at h
        dsimp only
        rw [h]
        rfl
      | error f =>
        rw [hl] at h
        obtain ⟨t, h⟩ := h
        dsimp only
        rw [h]
  · exact ⟨s.notices, rfl⟩

/-- Opening a path whose directory is there reads the file and leaves the disk alone. -/
theorem openAt_of_ready {path : Path} (durable : Bool) {s : Logged Disk}
    (h : Ready path s.state) :
    ∃ ns, openAt path durable s = match ofContent path durable (s.state.contentAt path) with
      | .ok store => .ok store ⟨s.state, ns⟩
      | .error f => .error f ⟨s.state, ns⟩ := by
  rw [openAt_of_ensured (Disk.ensureDirectory_of_has h.parent)]
  exact readFile_of_ready durable h

theorem openAt_leaves_disk {path : Path} {durable : Bool} {store : FileStore} {s t : Logged Disk}
    (hready : Ready path s.state) (h : openAt path durable s = .ok store t) : t.state = s.state := by
  obtain ⟨ns, hrun⟩ := openAt_of_ready durable hready
  rw [hrun] at h
  cases hc : ofContent path durable (s.state.contentAt path) with
  | error f => rw [hc] at h; cases h
  | ok store' =>
    rw [hc] at h
    cases h
    rfl

/-- **Opening a path** makes sure of its directory; the store then knows what the file says. -/
theorem openAt_ok {path : Path} {durable : Bool} {store : FileStore} {s t : Logged Disk}
    (h : openAt path durable s = .ok store t) :
    ∃ u, Disk.ensureDirectory path.parent s = .ok () u ∧ t.state = u.state
      ∧ Ready path t.state ∧ ofContent path durable (t.state.contentAt path) = .ok store := by
  obtain ⟨_, u, hu, _⟩ := Act.bind_eq_ok.1 h
  have hparent := Disk.ensureDirectory_ok hu
  rw [openAt_of_ensured hu] at h
  have hready : Ready path u.state := by
    refine ⟨hparent, ?_⟩
    -- any other way for the path to lead would have been a fault
    have hok : ∃ o, u.state.readText? path = .ok o := by
      obtain ⟨o, _, ho, _⟩ := Act.bind_eq_ok.1 h
      exact ⟨o, (Act.ofExcept_eq_ok.1 ho).1⟩
    obtain ⟨o, ho⟩ := hok
    rcases Disk.locate_of_parent hparent with hl | hl | ⟨hnull, _⟩
    · refine .inr ⟨hl, fun hd => ?_⟩
      unfold Disk.readText? Disk.find? at ho
      rw [hl] at ho
      dsimp only at ho
      rw [hd] at ho
      cases ho
    · unfold Disk.readText? Disk.find? at ho
      rw [hl] at ho
      cases ho
    · exact .inl hnull
  obtain ⟨ns, hrun⟩ := readFile_of_ready durable hready
  rw [hrun] at h
  cases hc : ofContent path durable (u.state.contentAt path) with
  | error f => rw [hc] at h; cases h
  | ok store' =>
    rw [hc] at h
    cases h
    exact ⟨u, hu, rfl, hready, hc⟩

/-! ## What a store that was opened knows -/

theorem learnedAll_durable (s : FileStore) (durable : Bool) (entries : List (Text × Json)) :
    { s with durable }.learnedAll entries =
      (s.learnedAll entries).map fun t => { t with durable } := by
  induction entries generalizing s with
  | nil => rfl
  | cons e rest ih =>
    unfold learnedAll at ih ⊢
    rw [List.foldlM_cons, List.foldlM_cons]
    have hfirst : { s with durable }.learned e.1 e.2 =
        (s.learned e.1 e.2).map fun t => { t with durable } := by
      unfold learned
      rcases entryPosition e.2 with _ | _ | _ | _ <;> rfl
    rw [hfirst]
    cases s.learned e.1 e.2 with
    | error f => rfl
    | ok t => exact ih t

/-- Whether a store forces its files to the medium makes no difference for what it reads. -/
theorem ofContent_durable (path : Path) (durable : Bool) (c : Option Content) :
    ofContent path durable c = (ofContent path false c).map fun t => { t with durable } := by
  rcases c with _ | text | _
  · rfl
  · unfold ofContent
    dsimp only
    cases parse path text with
    | error f => rfl
    | ok entries => exact learnedAll_durable (blank path false) durable entries
  · rfl

/-- **A store knows of a stream what the file records**, right after it was opened. -/
theorem recorded_of_content {path : Path} {durable : Bool} {d : Disk} {store : FileStore}
    (h : ofContent path durable (d.contentAt path) = .ok store) (key : Text) :
    recorded path key d = store.load key := by
  unfold recorded
  rw [ofContent_durable] at h
  cases hc : ofContent path false (d.contentAt path) with
  | error f => rw [hc] at h; cases h
  | ok s =>
    rw [hc] at h
    cases h
    rfl

theorem Sound.of_content {path : Path} {durable : Bool} {c : Option Content} {store : FileStore}
    (h : ofContent path durable c = .ok store) : store.Sound ∧ store.path = path := by
  rcases c with _ | text | _
  · cases h
    exact ⟨.blank _ _, rfl⟩
  · unfold ofContent at h
    dsimp only at h
    cases hp : parse path text with
    | error f => rw [hp] at h; cases h
    | ok entries =>
      rw [hp] at h
      obtain ⟨hd, hr⟩ := parse_readable hp
      exact ⟨.of_learned hd hr h, (learnedAll_spec hd h).1.1⟩
  · cases h

/-- **What a store writes is read back**: a store that reads it loads the same positions. -/
theorem ofContent_document {s : FileStore} (hs : s.Sound) (path : Path) (durable : Bool) :
    ∃ t, ofContent path durable (some (.text (Json.write s.document))) = .ok t
      ∧ ∀ key q, t.load key = .ok q ↔ s.load key = .ok q := by
  obtain ⟨entries, t, hp, ht, hget⟩ := reread hs path durable
  refine ⟨t, ?_, fun key q => ?_⟩
  · unfold ofContent
    dsimp only
    rw [hp]
    exact ht
  · rw [load_eq_ok, load_eq_ok, (hget key).1, (hget key).2, Option.map_eq_none_iff]

end FileStore

end Changefeed
