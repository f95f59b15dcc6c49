import Changefeed.Proofs.Checkpoint.Flush
import Changefeed.Proofs.Disk.Failing

/-!
# What a call comes to

Before a call is made it is settled what it will come to. The copy says whether
the call is refused (`refusal?`), and what it makes of the copy if the file is to
be replaced (`revision?`); the disk says which call of the replacement fails
(`failure?`). These three tell everything about a call (`call_ending`), and what
follows about calls is read off them, not off the calls.
-/

namespace Changefeed

/-- A call to a checkpoint store. -/
inductive StoreCall where
  | load (key : Text)
  | save (key : Text) (p : Position)
  | reset (key : Text) (r : Reset)

namespace FileStore

/-- Makes a call. -/
def call : StoreCall → Act Mounted Unit
  | .load key => do
    let _ ← Act.ofExcept ((← Act.state).store.load key)
  | .save key p => save key p
  | .reset key r => reset key r

/-- The store and its disk after some calls, whichever of them fail. -/
def afterCalls (m : Logged Mounted) (calls : List StoreCall) : Logged Mounted :=
  calls.foldl (fun m c => (call c).after m) m

/-! ## What is known beforehand -/

/-- Why a call is refused, if it is. -/
def refusal? (s : FileStore) : StoreCall → Option Fault
  | .load key | .save key (.known _) => s.corruption? key
  | .save _ .null => none
  | .reset key r =>
    (if r.force then none else s.corruption? key).or
      ((r.refusal? (s.positions.get? key)).map .argument)

/-- A store in which all that was known of a key has given way to a reset. -/
def afterReset (s : FileStore) (key : Text) (r : Reset) : FileStore :=
  { s with corrupt := s.corrupt.erase key, positions := s.positions.set key r.sequence? }

/-- What a call that is not refused makes of the copy, if it changes it. -/
def revision? (s : FileStore) : StoreCall → Option FileStore
  | .load _ | .save _ .null => none
  | .save key (.known n) =>
    if FileStore.covers (s.positions.get? key) n then none else some (s.put key n)
  | .reset key r => some (s.afterReset key r)

/-- What a call has the file say, if it has it replaced. -/
def written? (s : FileStore) (c : StoreCall) : Option FileStore :=
  if (s.refusal? c).isSome then none else s.revision? c

/-- The file call that fails in the course of a call, if one does. -/
def failure? (m : Mounted) (c : StoreCall) : Option FileCall :=
  (m.store.written? c).bind fun s => m.disk.failing? s.path s.durable

/-! ## The calls, one by one -/

theorem load_run (key : Text) (m : Logged Mounted) :
    call (.load key) m = match m.state.store.corruption? key with
      | some f => .error f m
      | none => .ok () m := by
  show (Act.ofExcept (m.state.store.load key) >>= fun _ => pure () : Act Mounted Unit) m = _
  rw [load_eq]
  cases m.state.store.corruption? key <;> rfl

/-- What is left of a reset once a corrupt entry is out of the way. -/
def replaceEntry (key : Text) (r : Reset) : Act Mounted Unit := do
  let current ← Act.ofExcept ((← Act.state).store.current key)
  match r.refusal? current with
  | some cause => .fail (.argument cause)
  | none =>
    revise (replace key r.target)
    flush

theorem reset_eq (key : Text) (r : Reset) :
    reset key r = if r.force = true then discard key >>= fun _ => replaceEntry key r
      else replaceEntry key r := rfl

theorem replaceEntry_run (key : Text) (r : Reset) (m : Logged Mounted) :
    replaceEntry key r m =
      match (m.state.store.corruption? key).or
        ((r.refusal? (m.state.store.positions.get? key)).map .argument) with
      | some f => .error f m
      | none => flush ⟨{ m.state with store := { m.state.store with
          positions := m.state.store.positions.set key r.sequence? } }, m.notices⟩ := by
  show (Act.ofExcept (m.state.store.current key) >>= fun current =>
    match r.refusal? current with
    | some cause => .fail (.argument cause)
    | none => revise (replace key r.target) >>= fun _ => flush : Act Mounted Unit) m = _
  rw [funext (replace_eq key r), current_eq]
  cases m.state.store.corruption? key with
  | some f => rfl
  | none =>
    rw [Act.bind_of_ok (Act.ofExcept_eq_ok.2 ⟨rfl, rfl⟩)]
    dsimp only
    cases r.refusal? (m.state.store.positions.get? key) <;> rfl

/-- Discarding leaves the store without the entry, whether there was one or not. -/
theorem discard_eq (key : Text) (m : Logged Mounted) :
    ∃ ns, discard key m = .ok () ⟨{ m.state with store := { m.state.store with
      corrupt := m.state.store.corrupt.erase key } }, ns⟩ := by
  unfold discard
  rw [Act.state_bind]
  cases hc : m.state.store.corrupt.get? key with
  | none =>
    rw [Keyed.erase_of_none hc]
    exact ⟨m.notices, rfl⟩
  | some entry => exact ⟨_, rfl⟩

theorem reset_run (key : Text) (r : Reset) (m : Logged Mounted) :
    ∃ ns, reset key r m =
      match (if r.force then none else m.state.store.corruption? key).or
        ((r.refusal? (m.state.store.positions.get? key)).map .argument) with
      | some f => .error f m
      | none => flush ⟨{ m.state with store := m.state.store.afterReset key r }, ns⟩ := by
  rw [reset_eq]
  cases hforce : r.force with
  | false =>
    refine ⟨m.notices, (replaceEntry_run key r m).trans ?_⟩
    unfold afterReset
    dsimp only [Bool.false_eq_true, if_false]
    cases hc : m.state.store.corruption? key with
    | some f => rfl
    | none =>
      -- without an entry to discard, the store that is written is the same
      rw [Keyed.erase_of_none (corruption?_eq_none.1 hc)]
      rfl
  | true =>
    obtain ⟨ns, hdiscard⟩ := discard_eq key m
    have hnone : r.refusal? (m.state.store.positions.get? key) = none := by
      unfold Reset.refusal?
      rw [if_pos hforce]
    have hcorruption : corruption? { m.state.store with
        corrupt := m.state.store.corrupt.erase key } key = none :=
      corruption?_eq_none.2 (Keyed.get?_erase_self ..)
    refine ⟨ns, (Act.bind_of_ok hdiscard).trans ((replaceEntry_run key r _).trans ?_)⟩
    dsimp only
    rw [hcorruption, hnone]
    rfl

/-- **A call** is refused, or finds nothing to change, or changes the copy and flushes it. -/
theorem call_run (c : StoreCall) (m : Logged Mounted) :
    ∃ ns, call c m = match m.state.store.refusal? c with
      | some f => .error f m
      | none =>
        match m.state.store.revision? c with
        | none => .ok () m
        | some s => flush ⟨{ m.state with store := s }, ns⟩ := by
  cases c with
  | load key =>
    refine ⟨m.notices, (load_run key m).trans ?_⟩
    unfold refusal? revision?
    rfl
  | save key p =>
    cases p with
    | null => exact ⟨m.notices, rfl⟩
    | known n =>
      refine ⟨m.notices, (save_run key n m).trans ?_⟩
      unfold refusal? revision?
      dsimp only
      cases m.state.store.corruption? key with
      | some f => rfl
      | none =>
        dsimp only
        split <;> rfl
  | reset key r => exact reset_run key r m

/-! ## What is written -/

theorem written?_of_refusal {s : FileStore} {c : StoreCall} {f : Fault} (h : s.refusal? c = some f) :
    s.written? c = none := by
  unfold written?
  rw [h]
  rfl

theorem written?_of_none {s : FileStore} {c : StoreCall} (h : s.refusal? c = none) :
    s.written? c = s.revision? c := by
  unfold written?
  rw [h]
  rfl

theorem failure?_of_unwritten {m : Mounted} {c : StoreCall} (h : m.store.written? c = none) :
    failure? m c = none := by
  unfold failure?
  rw [h]
  rfl

/-- A save puts a position in, and a reset puts something in the place of all that was there. -/
theorem written?_cases {s t : FileStore} {c : StoreCall} (h : s.written? c = some t) :
    (∃ key n, c = .save key (.known n) ∧ s.corrupt.get? key = none ∧ t = s.put key n)
      ∨ ∃ key r, c = .reset key r ∧ t = s.afterReset key r := by
  cases hrefusal : s.refusal? c with
  | some f =>
    rw [written?_of_refusal hrefusal] at h
    cases h
  | none =>
    rw [written?_of_none hrefusal] at h
    cases c with
    | load key => cases h
    | save key p =>
      cases p with
      | null => cases h
      | known n =>
        unfold revision? at h
        dsimp only at h
        split at h <;> cases h
        exact .inl ⟨key, n, rfl, corruption?_eq_none.1 hrefusal, rfl⟩
    | reset key r =>
      cases h
      exact .inr ⟨key, r, rfl, rfl⟩

theorem path_of_written? {s t : FileStore} {c : StoreCall} (h : s.written? c = some t) :
    t.path = s.path := by
  rcases written?_cases h with ⟨key, n, _, _, rfl⟩ | ⟨key, r, _, rfl⟩ <;> rfl

/-- A store that is written is sound if the one was that was called. -/
theorem Sound.written {s t : FileStore} {c : StoreCall} (hs : s.Sound) (h : s.written? c = some t) :
    t.Sound := by
  rcases written?_cases h with ⟨key, n, _, hnone, rfl⟩ | ⟨key, r, _, rfl⟩
  · exact hs.set hnone (some n)
  · exact (hs.discard key).set (Keyed.get?_erase_self ..) r.sequence?

/-! ## How a call ends -/

/-- How a call ends. -/
inductive Ending (c : StoreCall) (m : Logged Mounted) : Prop
  | refused {f : Fault} (refusal : m.state.store.refusal? c = some f) (run : call c m = .error f m)
  | needless (refusal : m.state.store.refusal? c = none) (written : m.state.store.written? c = none)
      (run : call c m = .ok () m)
  /-- The file is replaced. -/
  | replaced {s : FileStore} {t : Logged Mounted} (refusal : m.state.store.refusal? c = none)
      (written : m.state.store.written? c = some s) (failure : failure? m.state c = none)
      (run : call c m = .ok () t) (store : t.state.store = s)
      (disk : Disk.Replaced m.state.disk s.path s.written t.state.disk)
  /-- The file is replaced, but its directory could not be forced to the medium. -/
  | unforced {s : FileStore} {f : Fault} {t : Logged Mounted}
      (refusal : m.state.store.refusal? c = none) (written : m.state.store.written? c = some s)
      (failure : failure? m.state c = some .syncDirectory) (run : call c m = .error f t)
      (store : t.state.store = s)
      (disk : Disk.Replaced m.state.disk s.path s.written t.state.disk)
  /-- An earlier file call fails, and the copy alone has changed. -/
  | failed {s : FileStore} {f : Fault} {t : Logged Mounted} {step : FileCall}
      (refusal : m.state.store.refusal? c = none) (written : m.state.store.written? c = some s)
      (failure : failure? m.state c = some step) (early : step ≠ .syncDirectory)
      (run : call c m = .error f t) (store : t.state.store = s)
      (disk : t.state.disk.nodes = m.state.disk.nodes)

/-- **How a call ends** is settled before it is made. -/
theorem call_ending (c : StoreCall) (m : Logged Mounted) : Ending c m := by
  obtain ⟨ns, hrun⟩ := call_run c m
  cases hrefusal : m.state.store.refusal? c with
  | some f =>
    rw [hrefusal] at hrun
    exact .refused hrefusal hrun
  | none =>
    have hwritten := written?_of_none hrefusal
    rw [hrefusal] at hrun
    cases hrevision : m.state.store.revision? c with
    | none =>
      rw [hrevision] at hrun hwritten
      exact .needless hrefusal hwritten hrun
    | some s =>
      rw [hrevision] at hrun hwritten
      dsimp only at hrun
      have hfailure : failure? m.state c = m.state.disk.failing? s.path s.durable := by
        unfold failure?
        rw [hwritten]
        rfl
      have hends := Disk.replace_run s.path s.written s.durable ⟨m.state.disk, ns⟩
      dsimp only at hends
      rw [← hfailure] at hends
      cases hstep : failure? m.state c with
      | none =>
        rw [hstep] at hends
        obtain ⟨u, hu, hr⟩ := hends
        exact .replaced hrefusal hwritten hstep (hrun.trans (flush_ok hu)) rfl hr
      | some step =>
        rw [hstep] at hends
        by_cases hlast : step = .syncDirectory
        · subst hlast
          obtain ⟨f, u, hu, hr⟩ := hends
          obtain ⟨ns', hflush⟩ := flush_error (m := ⟨{ m.state with store := s }, ns⟩) hu
          exact .unforced hrefusal hwritten hstep (hrun.trans hflush) rfl hr
        · obtain ⟨f, u, hu, hsame⟩ := hends.early hlast
          obtain ⟨ns', hflush⟩ := flush_error (m := ⟨{ m.state with store := s }, ns⟩) hu
          exact .failed hrefusal hwritten hstep hlast (hrun.trans hflush) rfl hsame

end FileStore

end Changefeed
