import Changefeed.Checkpoint.Host
import Changefeed.Proofs.Action
import Changefeed.Proofs.Order

/-!
# What the calls to a checkpoint store do

A store on a file works on a copy in memory, and changes the copy before it
replaces the file. So a call that fails because the file could not be replaced
has changed the copy all the same, and each description below says how.

For a stream only one consequence matters, and both kinds of store have it:
however a save ends, the store then holds the further of what it held and what
it was asked to save (`Furthest`). Other stores may fail to hold that; all that
can be relied on is that they hold nothing further (`Bounded`).
-/

namespace Changefeed

/-! ## The file store -/

namespace FileStore

/-- A store loads a position exactly when the entry of the key is not corrupt. -/
theorem load_eq_ok {s : FileStore} {key : Text} {q : Position} :
    s.load key = .ok q ↔
      s.corrupt.get? key = none ∧ Position.ofKnown (s.positions.get? key) = q := by
  unfold load current
  cases s.corrupt.get? key with
  | some entry => simp [Except.map]
  | none => simp [Except.map]

/-- What is said of the entry of a key that denotes no position. -/
def corruption? (s : FileStore) (key : Text) : Option Fault :=
  (s.corrupt.get? key).map fun entry => .format (.badEntry entry key s.path.text)

theorem current_eq (s : FileStore) (key : Text) :
    s.current key = match s.corruption? key with
      | some f => .error f
      | none => .ok (s.positions.get? key) := by
  unfold current corruption?
  cases s.corrupt.get? key <;> rfl

theorem corruption?_eq_none {s : FileStore} {key : Text} :
    s.corruption? key = none ↔ s.corrupt.get? key = none := by
  unfold corruption?
  rw [Option.map_eq_none_iff]

theorem load_eq (s : FileStore) (key : Text) :
    s.load key = match s.corruption? key with
      | some f => .error f
      | none => .ok (.ofKnown (s.positions.get? key)) := by
  unfold load
  rw [current_eq]
  cases s.corruption? key <;> rfl

theorem load_of_corrupt {s : FileStore} {key : Text} {e : Json} (h : s.corrupt.get? key = some e) :
    s.load key = .error (.format (.badEntry e key s.path.text)) := by
  have hcorruption : s.corruption? key = some (.format (.badEntry e key s.path.text)) := by
    unfold corruption?
    rw [h]
    rfl
  rw [load_eq, hcorruption]

/-- What is stored makes a save needless when it is at least as far. -/
theorem covers_iff {o : Option Sequence} {n : Sequence} :
    FileStore.covers o n = true ↔ .known n ≤ Position.ofKnown o := by
  cases o with
  | none => simp [FileStore.covers, Position.ofKnown]
  | some k => simp [FileStore.covers, Position.ofKnown]

/-- The guards of the two kinds of store, each put its own way, agree on what is to be stored, -/
theorem admits_eq_not_covers (o : Option Sequence) (n : Sequence) :
    MemoryStore.admits o n = !covers o n := by
  cases o with
  | none => rfl
  | some m =>
    show decide (m < n) = !decide (n ≤ m)
    rw [← decide_not]
    exact decide_eq_decide.2 Fin.not_le.symm

/-- and their branches for a reset on what becomes of the position. -/
theorem replace_eq (key : Text) (r : Reset) (s : FileStore) :
    replace key r.target s = { s with positions := s.positions.set key r.sequence? } := by
  unfold replace Reset.sequence?
  rcases r.target with _ | _ | n <;> rfl

/-- Replacing the file leaves the copy alone. -/
theorem flush_store (s : FileStore) : Act.Keeps (fun m : Mounted => m.store = s) flush := by
  refine .bind .state fun _ => .onFault (.within fun _ _ h => h) fun f => ?_
  cases f with
  | system cause => exact .note _
  | _ => exact .pure ()

/-- The copy with a position put in. -/
def put (s : FileStore) (key : Text) (n : Sequence) : FileStore :=
  { s with positions := s.positions.insert key n }

theorem save_run (key : Text) (n : Sequence) (m : Logged Mounted) :
    save key (.known n) m = match m.state.store.corruption? key with
      | some f => .error f m
      | none =>
        if FileStore.covers (m.state.store.positions.get? key) n then .ok () m
        else flush ⟨{ m.state with store := m.state.store.put key n }, m.notices⟩ := by
  show (Act.ofExcept (m.state.store.current key) >>= fun current =>
    if FileStore.covers current n then pure ()
    else revise (fun s => s.put key n) >>= fun _ => flush : Act Mounted Unit) m = _
  rw [current_eq]
  cases m.state.store.corruption? key with
  | some f => rfl
  | none =>
    rw [Act.bind_of_ok (Act.ofExcept_eq_ok.2 ⟨rfl, rfl⟩)]
    dsimp only
    split <;> rfl

/--
**Saving a known position.** A corrupt entry makes it fail, and a position that
the copy already covers makes it needless; otherwise the position goes into the
copy, and then the file is replaced.
-/
theorem save_cases (key : Text) (n : Sequence) (m : Logged Mounted) :
    (∃ f, m.state.store.load key = .error f ∧ save key (.known n) m = .error f m)
      ∨ (∃ q, m.state.store.load key = .ok q ∧ .known n ≤ q ∧ save key (.known n) m = .ok () m)
      ∨ (∃ q, m.state.store.load key = .ok q ∧ q < .known n
          ∧ save key (.known n) m =
            flush ⟨{ m.state with store := m.state.store.put key n }, m.notices⟩) := by
  have hload := load_eq m.state.store key
  have hrun := save_run key n m
  cases hc : m.state.store.corruption? key with
  | some f =>
    rw [hc] at hload hrun
    exact .inl ⟨f, hload, hrun⟩
  | none =>
    rw [hc] at hload hrun
    dsimp only at hrun
    by_cases hcov : FileStore.covers (m.state.store.positions.get? key) n = true
    · rw [if_pos hcov] at hrun
      exact .inr (.inl ⟨_, hload, covers_iff.1 hcov, hrun⟩)
    · rw [if_neg hcov] at hrun
      exact .inr (.inr ⟨_, hload, not_le.1 fun h => hcov (covers_iff.2 h), hrun⟩)

theorem load_put_self {s : FileStore} {key : Text} {n : Sequence} {q : Position}
    (h : s.load key = .ok q) : (s.put key n).load key = .ok (.known n) := by
  refine load_eq_ok.2 ⟨(load_eq_ok.1 h).1, ?_⟩
  show Position.ofKnown ((s.positions.insert key n).get? key) = _
  rw [Keyed.get?_insert_self]
  rfl

theorem load_put_of_ne (s : FileStore) {key key' : Text} (h : key ≠ key') (n : Sequence) :
    (s.put key n).load key' = s.load key' := by
  unfold load current put
  dsimp only
  rw [Keyed.get?_insert_of_ne _ h]

end FileStore

namespace MemoryStore

theorem save_eq (key : Text) (n : Sequence) : save key (.known n) = .update fun s =>
    if FileStore.covers (s.positions.get? key) n then s else ⟨s.positions.insert key n⟩ := by
  have hguard : ∀ s : MemoryStore,
      (if admits (s.positions.get? key) n then ⟨s.positions.insert key n⟩ else s) =
        if FileStore.covers (s.positions.get? key) n then s else ⟨s.positions.insert key n⟩ := by
    intro s
    rw [FileStore.admits_eq_not_covers]
    cases FileStore.covers (s.positions.get? key) n <;> rfl
  exact congrArg Act.update (funext hguard)

theorem replace_eq (key : Text) (r : Reset) (s : MemoryStore) :
    replace key r.target s = ⟨s.positions.set key r.sequence?⟩ := by
  unfold replace Reset.sequence?
  rcases r.target with _ | _ | n <;> rfl

end MemoryStore

/-! ## The furthest position -/

/-- A store that holds, after any attempt to save, the further of what it held and what it was
asked to save. -/
class Furthest (σ : Type) [CheckpointStore σ] : Prop where
  load_save : ∀ (key : Text) (p q : Position) (s : Logged σ),
    CheckpointStore.load s.state key = .ok q →
      CheckpointStore.load ((CheckpointStore.save key p).after s).state key = .ok (max q p)

theorem MemoryStore.load_save (key : Text) (p : Position) (s : Logged MemoryStore) :
    ((MemoryStore.save key p).after s).state.load key = max (s.state.load key) p := by
  unfold MemoryStore.load
  cases p with
  | null => exact (max_eq_left (Position.null_le _)).symm
  | known n =>
    rw [save_eq]
    show Position.ofKnown ((if FileStore.covers (s.state.positions.get? key) n = true then s.state
      else ⟨s.state.positions.insert key n⟩ : MemoryStore).positions.get? key) = _
    by_cases hcov : FileStore.covers (s.state.positions.get? key) n = true
    · rw [if_pos hcov, max_eq_left (FileStore.covers_iff.1 hcov)]
    · rw [if_neg hcov, Keyed.get?_insert_self]
      exact (max_eq_right (le_of_not_ge fun h => hcov (FileStore.covers_iff.2 h))).symm

theorem FileStore.load_save (key : Text) (p : Position) {q : Position} (m : Logged Mounted)
    (h : m.state.store.load key = .ok q) :
    ((FileStore.save key p).after m).state.store.load key = .ok (max q p) := by
  cases p with
  | null => rw [max_eq_left (Position.null_le q)]; exact h
  | known n =>
    rcases save_cases key n m with ⟨f, hf, _⟩ | ⟨r, hr, hle, hs⟩ | ⟨r, hr, hlt, hs⟩
    · rw [hf] at h; cases h
    · rw [hr] at h; cases h
      rw [Act.after_of_ok hs, max_eq_left hle]
      exact hr
    · rw [hr] at h; cases h
      -- whether or not the file gets replaced, the copy stays as it went into the flush
      rw [Act.after_congr hs, flush_store (m.state.store.put key n) _ rfl,
        max_eq_right (le_of_lt hlt)]
      exact load_put_self hr

instance : Furthest MemoryStore where
  load_save key p q s h := by
    cases h
    exact congrArg Except.ok (MemoryStore.load_save key p s)

instance : Furthest Mounted where
  load_save key p _ m h := FileStore.load_save key p m h

/-- The store of a host changes as it would by itself. -/
theorem Host.act_after {α : Type} (onMemory : Act MemoryStore α) (onFile : Act Mounted α)
    (h : Logged Host) :
    ((Host.act onMemory onFile).after h).state =
      match h.state.store with
      | .memory s => { h.state with store := .memory (onMemory.after ⟨s, h.notices⟩).state }
      | .file s =>
        let m := (onFile.after ⟨⟨s, h.state.disk⟩, h.notices⟩).state
        ⟨m.disk, .file m.store⟩ := by
  unfold Host.act Act.after
  rw [Act.state_bind]
  cases h.state.store with
  | memory s => exact Act.after_within _ _ _ h
  | file s => exact Act.after_within _ _ _ h

instance : Furthest Host where
  load_save key p q h hq := by
    show Host.load ((Host.act (MemoryStore.save key p) (FileStore.save key p)).after h).state key = _
    rw [Host.act_after]
    change Host.load h.state key = .ok q at hq
    unfold Host.load at hq ⊢
    cases hs : h.state.store with
    | memory s =>
      rw [hs] at hq
      cases hq
      exact congrArg Except.ok (MemoryStore.load_save key p ⟨s, h.notices⟩)
    | file s =>
      rw [hs] at hq
      exact FileStore.load_save key p ⟨⟨s, h.state.disk⟩, h.notices⟩ hq

/-! ## No further position -/

/-- A store that never holds, after an attempt to save, a position beyond what it held and what it
was asked to save. -/
class Bounded (σ : Type) [CheckpointStore σ] : Prop where
  load_save : ∀ (key : Text) (p q : Position) (s : Logged σ),
    CheckpointStore.load s.state key = .ok q →
      ∃ r, CheckpointStore.load ((CheckpointStore.save key p).after s).state key = .ok r
        ∧ r ≤ max q p

instance {σ : Type} [CheckpointStore σ] [Furthest σ] : Bounded σ where
  load_save key p q s h := ⟨max q p, Furthest.load_save key p q s h, le_refl _⟩

namespace Unreliable

variable {σ : Type} [CheckpointStore σ]

/-- A store that is in order for loading loads what the store itself does. -/
theorem load_eq_ok {u : Unreliable σ} {key : Text} {q : Position} :
    CheckpointStore.load u key = .ok q ↔
      u.broken ≠ some .load ∧ CheckpointStore.load u.store key = .ok q := by
  have hload : CheckpointStore.load u key =
      if u.broken = some .load then .error (fault .load) else CheckpointStore.load u.store key := rfl
  rw [hload]
  by_cases hbroken : u.broken = some .load <;> simp [hbroken]

/-- One that is out of order for saving stays as it is, the others save as the store itself does. -/
theorem save_after (key : Text) (p : Position) (s : Logged (Unreliable σ)) :
    ((CheckpointStore.save key p).after s).state =
      if s.state.broken = some .save then s.state
      else { s.state with
        store := ((CheckpointStore.save key p).after ⟨s.state.store, s.notices⟩).state } := by
  have hrun : CheckpointStore.save key p s = (if s.state.broken = some .save then
      .fail (fault .save) else onStore (CheckpointStore.save key p) : Act (Unreliable σ) Unit) s := rfl
  rw [Act.after_congr hrun]
  split
  · rfl
  · exact Act.after_within _ _ _ s

instance [Bounded σ] : Bounded (Unreliable σ) where
  load_save key p q s h := by
    obtain ⟨hbroken, hload⟩ := load_eq_ok.1 h
    rw [save_after]
    split
    · exact ⟨q, h, le_max_left q p⟩
    · obtain ⟨r, hr, hle⟩ := Bounded.load_save key p q ⟨s.state.store, s.notices⟩ hload
      exact ⟨r, load_eq_ok.2 ⟨hbroken, hr⟩, hle⟩

end Unreliable

end Changefeed
