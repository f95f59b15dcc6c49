import Changefeed.Proofs.Checkpoint.Revision

/-!
# What a save is worth

A save that ends normally need not have written anything: when the copy in memory
already covers the position it stops there, and the copy may be ahead of the
file, because it is changed before the file is replaced and stays changed if that
fails. So after a normal end the file holds the position exactly when this save
had to write, or the file held it before (`held_iff`). In a history without such
failures the copy and the file say the same (`InStep`), and the file always holds
it.
-/

namespace Changefeed

namespace FileStore

/-- What a store says of a stream that is newly opened on a path. -/
def reopened (path : Path) (key : Text) (d : Disk) : Except Fault Position :=
  match openAt path false ⟨d, []⟩ with
  | .ok s _ => s.load key
  | .error f _ => .error f

/-- A store that is newly opened on a path has a stream at a position or beyond it. -/
def Held (path : Path) (key : Text) (p : Position) (d : Disk) : Prop :=
  ∃ q, reopened path key d = .ok q ∧ p ≤ q

/-- Each of the calls ends normally, or leaves the copy as it was. -/
def Settled : Logged Mounted → List StoreCall → Prop
  | _, [] => True
  | m, c :: calls =>
    (call c m = .ok () ((call c).after m) ∨ ((call c).after m).state.store = m.state.store)
      ∧ Settled ((call c).after m) calls

/-! ## What calls keep -/

/-- A store on a path, and the disk that it was opened on. -/
structure Opened (path : Path) (m : Mounted) : Prop where
  onPath : m.store.path = path
  sound : m.store.Sound
  ready : Ready path m.disk

/-- The file and the copy say the same of every stream. -/
def InStep (path : Path) (m : Mounted) : Prop :=
  ∀ key q, recorded path key m.disk = .ok q ↔ m.store.load key = .ok q

theorem opened {path : Path} {durable : Bool} {store : FileStore} {s t : Logged Disk}
    (h : openAt path durable s = .ok store t) :
    Opened path ⟨store, t.state⟩ ∧ InStep path ⟨store, t.state⟩ := by
  obtain ⟨u, _, _, hready, hc⟩ := openAt_ok h
  obtain ⟨hsound, hpath⟩ := Sound.of_content hc
  refine ⟨⟨hpath, hsound, hready⟩, fun key q => ?_⟩
  show recorded path key t.state = .ok q ↔ _
  rw [recorded_of_content hc]

/-- A new store says what the file records. -/
theorem reopened_of_ready {path : Path} {d : Disk} (h : Ready path d) (key : Text) :
    reopened path key d = recorded path key d := by
  obtain ⟨ns, hopen⟩ := openAt_of_ready false (s := ⟨d, []⟩) h
  unfold reopened
  rw [hopen]
  dsimp only
  unfold recorded
  cases ofContent path false (d.contentAt path) <;> rfl

/-- **A call** that changes anything changes the copy, and then flushes it. -/
theorem call_cases (c : StoreCall) (m : Logged Mounted) :
    (call c).after m = m
      ∨ ∃ s ns, call c m = flush ⟨{ m.state with store := s }, ns⟩
        ∧ s.path = m.state.store.path ∧ (m.state.store.Sound → s.Sound) := by
  obtain ⟨ns, hrun⟩ := call_run c m
  cases hrefusal : m.state.store.refusal? c with
  | some f =>
    rw [hrefusal] at hrun
    exact .inl (Act.after_of_error hrun)
  | none =>
    rw [hrefusal] at hrun
    have hwritten := written?_of_none hrefusal
    cases hrevision : m.state.store.revision? c with
    | none =>
      rw [hrevision] at hrun
      exact .inl (Act.after_of_ok hrun)
    | some s =>
      rw [hrevision] at hrun hwritten
      exact .inr ⟨s, ns, hrun, path_of_written? hwritten, fun h => h.written hwritten⟩

/-! ## The copy and the file -/

/-- A flush of an opened store puts the file in step with the copy, or does nothing to the disk. -/
theorem Opened.flush {path : Path} {m t : Logged Mounted} (h : Opened path m.state)
    (ht : FileStore.flush.after m = t) :
    Opened path t.state ∧ t.state.store = m.state.store
      ∧ (InStep path t.state
        ∨ (∃ f, FileStore.flush m = .error f t) ∧ t.state.disk.nodes = m.state.disk.nodes) := by
  rcases flush_cases m with ⟨f, u, hu, hstore, hnodes⟩ | ⟨u, hu, hstore, hrep⟩
  · obtain rfl : u = t := (Act.after_of_error hu).symm.trans ht
    refine ⟨⟨by rw [hstore]; exact h.onPath, by rw [hstore]; exact h.sound, h.ready.congr hnodes⟩,
      hstore, .inr ⟨⟨f, hu⟩, hnodes⟩⟩
  · obtain rfl : u = t := by
      rcases hu with hu | ⟨f, hu⟩
      · exact (Act.after_of_ok hu).symm.trans ht
      · exact (Act.after_of_error hu).symm.trans ht
    rw [h.onPath] at hrep
    refine ⟨⟨by rw [hstore]; exact h.onPath, by rw [hstore]; exact h.sound, .of_replaced hrep⟩,
      hstore, .inl fun key q => ?_⟩
    rw [recorded_of_written h.sound hrep.contentAt, hstore]

theorem Opened.call {path : Path} {m : Logged Mounted} (h : Opened path m.state) (c : StoreCall) :
    Opened path ((call c).after m).state := by
  rcases call_cases c m with hc | ⟨s, ns, hc, hpath, hsound⟩
  · rwa [hc]
  · have hs : Opened path { m.state with store := s } := ⟨hpath.trans h.onPath, hsound h.sound, h.ready⟩
    exact (hs.flush (m := ⟨_, ns⟩) (Act.after_congr hc).symm).1

/-- A call that ends normally, or leaves the copy as it was, leaves copy and file in step. -/
theorem InStep.call {path : Path} {m : Logged Mounted} (ho : Opened path m.state)
    (h : InStep path m.state) {c : StoreCall}
    (hc : FileStore.call c m = .ok () ((FileStore.call c).after m)
      ∨ ((FileStore.call c).after m).state.store = m.state.store) :
    InStep path ((FileStore.call c).after m).state := by
  rcases call_cases c m with hsame | ⟨s, ns, hrun, hpath, hsound⟩
  · rwa [hsame]
  · have hs : Opened path { m.state with store := s } := ⟨hpath.trans ho.onPath, hsound ho.sound, ho.ready⟩
    obtain ⟨_, hstore, hin | ⟨⟨f, hf⟩, hnodes⟩⟩ :=
      hs.flush (m := ⟨_, ns⟩) (Act.after_congr hrun).symm
    · exact hin
    · -- the flush failed, so the copy is as it was, and the file is too
      rcases hc with hc | hc
      · rw [hrun, hf] at hc
        cases hc
      · intro key q
        rw [hc, ← h key q]
        unfold recorded
        rw [Disk.contentAt_congr hnodes]

theorem opened_afterCalls {path : Path} {m : Logged Mounted} (h : Opened path m.state)
    (calls : List StoreCall) : Opened path (afterCalls m calls).state := by
  induction calls generalizing m with
  | nil => exact h
  | cons c calls ih => exact ih (h.call c)

theorem inStep_afterCalls {path : Path} {m : Logged Mounted} (ho : Opened path m.state)
    (h : InStep path m.state) {calls : List StoreCall} (hs : Settled m calls) :
    InStep path (afterCalls m calls).state := by
  induction calls generalizing m with
  | nil => exact h
  | cons c calls ih => exact ih (ho.call c) (h.call ho hs.1) hs.2

/--
**What a normal end of a save is worth.**

A store is opened on a path and any calls are made to it, any of which may fail,
in any step of replacing the file. When a save then ends normally, a store that
is newly opened on the path has the stream at the saved position or beyond
exactly when the copy in memory was still behind it, so that this save had to
write, or the file had it there before. Where no earlier call failed after it had
changed the copy, it always has.
-/
theorem held_iff {path : Path} {durable : Bool} {store : FileStore} {s t : Logged Disk}
    (hopen : openAt path durable s = .ok store t) (calls : List StoreCall) {key : Text}
    {n : Sequence} {u : Logged Mounted}
    (hsave : save key (.known n) (afterCalls ⟨⟨store, t.state⟩, t.notices⟩ calls) = .ok () u) :
    let m := (afterCalls ⟨⟨store, t.state⟩, t.notices⟩ calls).state
    ∃ q, m.store.load key = .ok q
      ∧ (Held path key (.known n) u.state.disk ↔ q < .known n ∨ Held path key (.known n) m.disk)
      ∧ (Settled ⟨⟨store, t.state⟩, t.notices⟩ calls → Held path key (.known n) u.state.disk) := by
  intro m
  obtain ⟨ho, hin⟩ := opened hopen
  have hom : Opened path m := opened_afterCalls (m := ⟨⟨store, t.state⟩, t.notices⟩) ho calls
  rcases save_cases key n (afterCalls ⟨⟨store, t.state⟩, t.notices⟩ calls) with
    ⟨f, _, hs⟩ | ⟨q, hq, hle, hs⟩ | ⟨q, hq, hlt, hs⟩
  · rw [hs] at hsave
    cases hsave
  · -- the copy covers the position, so nothing is written
    rw [hs] at hsave
    cases hsave
    refine ⟨q, hq, ⟨.inr, fun h => h.resolve_left (not_lt.2 hle)⟩, fun hsettled => ⟨q, ?_, hle⟩⟩
    have hstep : InStep path m :=
      inStep_afterCalls (m := ⟨⟨store, t.state⟩, t.notices⟩) ho hin hsettled
    exact (reopened_of_ready hom.ready key).trans ((hstep key q).2 hq)
  · -- the copy is behind, so the file is replaced
    rw [hs] at hsave
    have hput : Opened path { m with store := m.store.put key n } :=
      ⟨hom.onPath, hom.sound.set (load_eq_ok.1 hq).1 (some n), hom.ready⟩
    obtain ⟨hou, hstore, hstep | ⟨⟨f, hf⟩, _⟩⟩ :=
      hput.flush (m := ⟨_, (afterCalls ⟨⟨store, t.state⟩, t.notices⟩ calls).notices⟩)
        (Act.after_of_ok hsave)
    · have hheld : Held path key (.known n) u.state.disk := by
        refine ⟨.known n, (reopened_of_ready hou.ready key).trans ((hstep key _).2 ?_), le_refl _⟩
        rw [hstore]
        exact load_put_self hq
      exact ⟨q, hq, ⟨fun _ => .inl hlt, fun _ => hheld⟩, fun _ => hheld⟩
    · rw [hf] at hsave
      cases hsave

/-- A history in which nothing fails, on a path where no file is yet. -/
theorem held_after_saves :
    ∃ store t u, openAt ⟨.here, ["resume.json"]⟩ true ⟨Disk.empty, []⟩ = .ok store t
      ∧ save "a" (.known 7) (afterCalls ⟨⟨store, t.state⟩, t.notices⟩
          [.save "a" (.known 5), .reset "b" ⟨none, none, false⟩, .load "a"]) = .ok () u
      ∧ Held ⟨.here, ["resume.json"]⟩ "a" (.known 7) u.state.disk := by
  have hopen : openAt ⟨.here, ["resume.json"]⟩ true ⟨Disk.empty, []⟩ =
      .ok (blank ⟨.here, ["resume.json"]⟩ true) ⟨Disk.empty, []⟩ := rfl
  obtain ⟨u, hsave⟩ : ∃ u, save "a" (.known 7)
      (afterCalls ⟨⟨blank ⟨.here, ["resume.json"]⟩ true, Disk.empty⟩, []⟩
        [.save "a" (.known 5), .reset "b" ⟨none, none, false⟩, .load "a"]) = .ok () u := ⟨_, rfl⟩
  obtain ⟨_, _, _, h⟩ := held_iff hopen
    [.save "a" (.known 5), .reset "b" ⟨none, none, false⟩, .load "a"] hsave
  exact ⟨_, _, u, hopen, hsave, h ⟨.inl rfl, .inl rfl, .inl rfl, trivial⟩⟩

/-- A save whose staged file could not be forced to the medium fails. The same save again ends
normally, since the copy covers the position by now, and still the file is not there. -/
theorem saved_and_not_held :
    let disk : Disk := { Disk.empty with plan := ⟨[], [true], []⟩ }
    ∃ store t, openAt ⟨.here, ["resume.json"]⟩ true ⟨disk, []⟩ = .ok store t
      ∧ ∃ u, save "a" (.known 5) (afterCalls ⟨⟨store, t.state⟩, t.notices⟩
          [.save "a" (.known 5)]) = .ok () u
        ∧ ¬Held ⟨.here, ["resume.json"]⟩ "a" (.known 5) u.state.disk := by
  refine ⟨_, _, rfl, _, rfl, ?_⟩
  rintro ⟨q, hq, hle⟩
  obtain rfl : Position.null = q := Except.ok.inj hq
  exact Position.not_known_le_null _ hle

end FileStore

end Changefeed
