import Changefeed.Checkpoint.File

/-!
# Hosts

A host is the machine that a stream runs on: its disk, and the checkpoint store
in use on it. A store may be out of order for a while, for reading or for
writing; then it answers with a fault and stays as it is.
-/

namespace Changefeed

/-- A checkpoint store of either kind. -/
inductive Store where
  | memory (store : MemoryStore)
  | file (store : FileStore)

/-- A disk, and a checkpoint store in use beside it. -/
structure Host where
  disk : Disk
  store : Store

namespace Host

/-- The position of a stream; null if none is stored. -/
def load (h : Host) (key : Text) : Except Fault Position :=
  match h.store with
  | .memory s => .ok (s.load key)
  | .file s => s.load key

/-- Acts on the store of a host, whichever kind it is. -/
def act {α : Type} (onMemory : Act MemoryStore α) (onFile : Act Mounted α) : Act Host α := do
  match (← Act.state).store with
  | .memory s => onMemory.within (fun _ => s) fun s h => { h with store := .memory s }
  | .file s => onFile.within (fun h => ⟨s, h.disk⟩) fun m _ => ⟨m.disk, .file m.store⟩

instance : CheckpointStore Host where
  load := load
  save key p := act (MemoryStore.save key p) (FileStore.save key p)
  reset key r := act (MemoryStore.reset key r) (FileStore.reset key r)

/-- Acts on the disk of a host. -/
def onDisk {α : Type} (action : Act Disk α) : Act Host α :=
  action.within (·.disk) fun d h => { h with disk := d }

end Host

/-! ## Stores out of order -/

/-- A way to use a store. -/
inductive Access where
  | load
  | save
deriving DecidableEq, Repr

/-- A store that may be out of order for one way to use it. -/
structure Unreliable (σ : Type) where
  store : σ
  broken : Option Access

namespace Unreliable

/-- What a store says that is out of order. -/
def fault : Access → Fault
  | .load => .reported (.system .failed) "disk gone"
  | .save => .reported (.system .failed) "disk full"

/-- Acts on the store itself, out of order or not. -/
def onStore {σ α : Type} (act : Act σ α) : Act (Unreliable σ) α :=
  act.within (·.store) fun s u => { u with store := s }

instance {σ : Type} [CheckpointStore σ] : CheckpointStore (Unreliable σ) where
  load u key := if u.broken = some .load then .error (fault .load) else CheckpointStore.load u.store key
  save key p := do
    if (← Act.state).broken = some .save then .fail (fault .save)
    else onStore (CheckpointStore.save key p)
  reset key r := onStore (CheckpointStore.reset key r)

end Unreliable

end Changefeed
