import Changefeed.Proofs.Checkpoint.Unfailing
import Changefeed.Proofs.Stream.Lockstep
import Changefeed.Proofs.Stream.Stable

/-!
# Streams that share a store

Many streams may keep their positions in one store, each under a key of its own.
Their owners open them, call them and reset them in any order. What the owner of one
stream gets to see of this is what there would be to see if nobody else used the
store (`isolated`), provided that the file can always be written; this holds also
where the entries of other streams are corrupt.

The proof compares the shared store with one that only the one owner uses. Errands
of others leave the stream's cell alone (`run_other`); errands of its own end by that
cell, and take the two streams along in tandem (`run_own`).
-/

namespace Changefeed

/-- A stream apart from its key and its store: where it stands, its sink, and what it has on
record. -/
structure Strand where
  phase : Phase
  reached : Position
  sink : Option (Sink Change)
  trace : List Event

/-- A stream under a key, on a store. -/
def Strand.session {σ : Type} (t : Strand) (key : Text) (store : σ) : Session σ Change :=
  ⟨key, t.phase, t.reached, store, t.sink, t.trace⟩

/-- A session apart from its key and its store. -/
def Session.strand {σ : Type} (s : Session σ Change) : Strand :=
  ⟨s.phase, s.reached, s.sink, s.trace⟩

/-- A store, and the streams that are open on it by their keys. -/
structure Pool (σ : Type) where
  store : σ
  streams : Text → Option Strand

/-- What the owner of a stream may set out to do. -/
inductive Errand where
  /-- Opens the stream, or opens it anew. -/
  | openStream (sink : Option (Sink Change)) (awaitSnapshot : Bool)
  | call (k : Call)
  /-- Resets what the store has of the stream. -/
  | reset (r : Reset)

/-- What the owner of a stream sees after an errand. -/
structure View where
  ended : Except Fault Unit
  /-- The stream with all that it has emitted, if it is open. -/
  strand : Option Strand
  stored : Except Fault Position

namespace Pool

variable {σ : Type} [CheckpointStore σ]

/-- Puts a session in the place of a stream, and its store in the place of the store. -/
def put (s : Session σ Change) (p : Pool σ) : Pool σ :=
  ⟨s.store, fun key => if key = s.key then some s.strand else p.streams key⟩

/-- Does an errand. There is nothing to call before a stream is open, and it stays as it is if it
cannot be opened. -/
def run (key : Text) : Errand → Act (Pool σ) Unit
  | .openStream sink awaitSnapshot => do
    let s ← Session.openOn key (← Act.state).store sink awaitSnapshot
    .update (put s)
  | .call k => do
    match (← Act.state).streams key with
    | none => pure ()
    | some t => (Session.call k).within (fun p => t.session key p.store) put
  | .reset r => (CheckpointStore.reset key r).within (·.store) fun store p => { p with store }

/-- What the owner of a stream sees after an errand of theirs. -/
def view (key : Text) (e : Errand) (l : Logged (Pool σ)) : View :=
  ⟨(run key e).result l, ((run key e).after l).state.streams key,
    CheckpointStore.load ((run key e).after l).state.store key⟩

/-- A pool after errands of many owners, whichever of them fail. -/
def afterErrands (l : Logged (Pool σ)) (errands : List (Text × Errand)) : Logged (Pool σ) :=
  errands.foldl (fun l e => (run e.1 e.2).after l) l

/-- All that the owner of one stream sees while errands of many are done. -/
def seen (key : Text) : Logged (Pool σ) → List (Text × Errand) → List View
  | _, [] => []
  | l, e :: rest =>
    (if e.1 = key then [view key e.2 l] else []) ++ seen key ((run e.1 e.2).after l) rest

/-! ## A stream in two pools -/

variable {Q : σ → Prop} {key : Text}

/-- Two sessions under one key that are the same but for their stores, which hold the same for
them. -/
inductive Twin (Q : σ → Prop) (key : Text) :
    Logged (Session σ Change) → Logged (Session σ Change) → Prop
  | intro (t : Strand) {store store' : σ} {ns ns' : List Notice} (same : Same Q key store store') :
      Twin Q key ⟨t.session key store, ns⟩ ⟨t.session key store', ns'⟩

/-- Two pools that are the same as far as one stream can tell. -/
structure Alike (Q : σ → Prop) (key : Text) (l l' : Logged (Pool σ)) : Prop where
  strand : l'.state.streams key = l.state.streams key
  same : Same Q key l.state.store l'.state.store

/-- **Twins go in tandem**, since a save goes well or not by the cell of its key. -/
theorem twin_tandem [Celled σ] (hQ : Reliable Q) (key : Text) :
    Session.Tandem (Twin Q key) where
  key := by rintro _ _ ⟨t, -⟩; rfl
  standing := by
    rintro _ _ ⟨t, same⟩
    exact congrArg (Standing.mk t.phase t.reached) same.stored
  reach := by
    rintro _ _ p ⟨t, same⟩
    exact .intro { t with reached := p } same
  enter := by
    rintro _ _ ph ⟨t, same⟩
    exact .intro { t with phase := ph } same
  note := by
    rintro _ _ n ⟨t, same⟩
    exact .intro t same
  save p := by
    rintro _ _ ⟨t, same⟩
    rename_i store store' ns ns'
    -- that the store is asked goes on record in both, and the rest is up to the stores
    obtain ⟨hresult, hsame⟩ := hQ.save_same key p ⟨store, ns⟩ ⟨store', ns'⟩ same
    rw [Act.result_congr (Session.save_run p _), Act.result_congr (Session.save_run p _),
      Act.after_congr (Session.save_run p _), Act.after_congr (Session.save_run p _)]
    rw [Act.result_within, Act.result_within, Act.run_within, Act.run_within]
    exact ⟨hresult, .intro { t with trace := t.trace ++ [.saving key p] } hsame⟩
  sink := by rintro _ _ ⟨t, -⟩; rfl
  turn := by
    rintro _ _ k ⟨t, same⟩
    exact .intro { t with sink := k } same
  record := by
    rintro _ _ e ⟨t, same⟩
    exact .intro { t with trace := t.trace ++ [e] } same

/-! ## Errands of its own -/

omit [CheckpointStore σ] in
theorem put_streams (t : Strand) (store : σ) (p : Pool σ) :
    (put (t.session key store) p).streams key = some t := if_pos rfl

/-- Twins that are put back leave their pools alike. -/
theorem Twin.put {p p' : Pool σ} {u u' : Logged (Session σ Change)} (h : Twin Q key u u') :
    Alike Q key ⟨Pool.put u.state p, u.notices⟩ ⟨Pool.put u'.state p', u'.notices⟩ := by
  obtain ⟨t, same⟩ := h
  exact ⟨by rw [put_streams, put_streams], same⟩

/-- A stream that is opened on a store with a cell, if it can be. -/
def opened (sink : Option (Sink Change)) (awaitSnapshot : Bool) (cell : Cell) :
    Except Fault Strand :=
  if awaitSnapshot then .ok ⟨.snapshotting, .null, sink, []⟩
  else cell.map fun q => ⟨.streaming, q, sink, []⟩

/-- Opening a stream asks the store for nothing but its cell. -/
theorem openStream_run (key : Text) (sink : Option (Sink Change)) (awaitSnapshot : Bool)
    (l : Logged (Pool σ)) :
    ∃ ns, run key (.openStream sink awaitSnapshot) l =
      match opened sink awaitSnapshot (CheckpointStore.load l.state.store key) with
      | .error f => .error f l
      | .ok t => .ok () ⟨put (t.session key l.state.store) l.state, ns⟩ := by
  have hrun : run key (.openStream sink awaitSnapshot) l =
      (Session.openOn key l.state.store sink awaitSnapshot >>= fun s => Act.update (put s)) l := rfl
  rw [hrun]
  unfold Session.openOn opened
  cases awaitSnapshot with
  | true => exact ⟨l.notices, rfl⟩
  | false =>
    have hstored : (Session.waiting key l.state.store sink).stored =
        CheckpointStore.load l.state.store key := rfl
    simp only [hstored, Bool.false_eq_true, if_false]
    cases CheckpointStore.load l.state.store key with
    | error f => exact ⟨l.notices, rfl⟩
    | ok q => exact ⟨l.notices ++ [.streaming key q .resume], rfl⟩

theorem openStream_own (key : Text) (sink : Option (Sink Change)) (awaitSnapshot : Bool) :
    Act.Matches (Alike Q key) (run key (.openStream sink awaitSnapshot))
      (run key (.openStream sink awaitSnapshot)) := by
  intro l l' h
  obtain ⟨ns, hrun⟩ := openStream_run key sink awaitSnapshot l
  obtain ⟨ns', hrun'⟩ := openStream_run key sink awaitSnapshot l'
  rw [h.same.stored] at hrun'
  unfold Act.result Act.after
  rw [hrun, hrun']
  cases opened sink awaitSnapshot (CheckpointStore.load l.state.store key) with
  | error f => exact ⟨rfl, h⟩
  | ok t =>
    have htwin : Twin Q key ⟨t.session key l.state.store, ns⟩ ⟨t.session key l'.state.store, ns'⟩ :=
      .intro t h.same
    exact ⟨rfl, htwin.put⟩

theorem call_own [Celled σ] (hQ : Reliable Q) (key : Text) (k : Call) :
    Act.Matches (Alike Q key) (run key (.call k)) (run key (.call k)) := by
  refine .state_bind fun l l' h => ?_
  rw [h.strand]
  cases l.state.streams key with
  | none => exact ⟨rfl, h⟩
  | some t =>
    refine Act.Matches.within (fun l l' h => ?_) l l' h
    obtain ⟨hresult, hafter⟩ := (twin_tandem hQ key).call k ⟨t.session key l.state.store, l.notices⟩
      ⟨t.session key l'.state.store, l'.notices⟩ (.intro t h.same)
    exact ⟨hresult, hafter.put⟩

theorem reset_own [Celled σ] (hQ : Reliable Q) (key : Text) (r : Reset) :
    Act.Matches (Alike Q key) (run key (.reset r)) (run key (.reset r)) := by
  unfold run
  refine .within fun l l' h => ?_
  obtain ⟨hresult, hsame⟩ := hQ.reset_same key r ⟨l.state.store, l.notices⟩
    ⟨l'.state.store, l'.notices⟩ h.same
  exact ⟨hresult, h.strand, hsame⟩

/-- **An errand of its own** ends alike in both pools, and leaves them alike. -/
theorem run_own [Celled σ] (hQ : Reliable Q) (key : Text) (e : Errand) :
    Act.Matches (Alike Q key) (run key e) (run key e) := by
  cases e with
  | openStream sink awaitSnapshot => exact openStream_own key sink awaitSnapshot
  | call k => exact call_own hQ key k
  | reset r => exact reset_own hQ key r

/-! ## Errands of others -/

/-- A session under another key on a store with the cell of a stream. -/
structure Apart (Q : σ → Prop) (k key : Text) (cell : Cell) (s : Session σ Change) : Prop where
  under : s.key = k
  holding : Holding Q key cell s.store

theorem apart_stable [Celled σ] (hQ : Reliable Q) {k : Text} (hne : k ≠ key) (cell : Cell) :
    Session.Stable (Apart Q k key cell) where
  moved _ _ _ h := ⟨h.under, h.holding⟩
  sink _ _ h := ⟨h.under, h.holding⟩
  handed _ _ h := ⟨h.under, h.holding⟩
  taken _ _ h := ⟨h.under, h.holding⟩
  asked s p h := by
    have hkey : s.state.key ≠ key := by
      rw [h.under]
      exact hne
    exact ⟨h.under, hQ.save_other hkey p ⟨s.state.store, s.notices⟩ h.holding⟩

/-- A pool as one stream sees it. -/
structure Held (Q : σ → Prop) (key : Text) (strand : Option Strand) (cell : Cell) (p : Pool σ) :
    Prop where
  strand : p.streams key = strand
  holding : Holding Q key cell p.store

theorem Apart.put {k : Text} (hne : k ≠ key) {strand : Option Strand} {cell : Cell}
    {s : Session σ Change} (hs : Apart Q k key cell s) {p : Pool σ} (hp : p.streams key = strand) :
    Held Q key strand cell (Pool.put s p) := by
  refine ⟨(if_neg ?_).trans hp, hs.holding⟩
  rw [hs.under]
  exact hne.symm

/-- **An errand of another** changes nothing for the stream. -/
theorem run_other [Celled σ] (hQ : Reliable Q) {k : Text} (hne : k ≠ key) (strand : Option Strand)
    (cell : Cell) (e : Errand) : Act.Keeps (Held Q key strand cell) (run k e) := by
  cases e with
  | openStream sink awaitSnapshot =>
    intro l h
    obtain ⟨ns, hrun⟩ := openStream_run k sink awaitSnapshot l
    unfold Act.after
    rw [hrun]
    cases opened sink awaitSnapshot (CheckpointStore.load l.state.store k) with
    | error f => exact h
    | ok t =>
      have hs : Apart Q k key cell (t.session k l.state.store) := ⟨rfl, h.holding⟩
      exact hs.put hne h.strand
  | call c =>
    intro l h
    unfold run
    rw [Act.after_congr (Act.state_bind _ l)]
    cases l.state.streams k with
    | none => exact h
    | some t =>
      refine Act.Keeps.within (fun p ns hp => ?_) l h
      exact ((apart_stable hQ hne cell).call c ⟨t.session k p.store, ns⟩
        ⟨rfl, hp.holding⟩).put hne hp.strand
  | reset r =>
    unfold run
    exact .within fun p ns h => ⟨h.strand, hQ.reset_other hne r ⟨p.store, ns⟩ h.holding⟩

/-! ## Errands of many -/

theorem seen_cons (key : Text) (l : Logged (Pool σ)) (e : Text × Errand)
    (rest : List (Text × Errand)) :
    seen key l (e :: rest) = (if e.1 = key then [view key e.2 l] else [])
      ++ seen key ((run e.1 e.2).after l) rest := rfl

/-- What one stream sees of the errands of many is what it sees of its own alone. -/
theorem seen_alone [Celled σ] (hQ : Reliable Q) {l l' : Logged (Pool σ)} (h : Alike Q key l l')
    (errands : List (Text × Errand)) :
    seen key l errands = seen key l' (errands.filter fun e => e.1 = key)
      ∧ Alike Q key (afterErrands l errands)
        (afterErrands l' (errands.filter fun e => e.1 = key)) := by
  induction errands generalizing l l' with
  | nil => exact ⟨rfl, h⟩
  | cons e rest ih =>
    obtain ⟨k, e⟩ := e
    by_cases hk : k = key
    · subst hk
      obtain ⟨hresult, hafter⟩ := run_own hQ k e l l' h
      obtain ⟨hseen, hend⟩ := ih hafter
      have hview : view k e l = view k e l' := by
        unfold view
        rw [hresult, hafter.strand, hafter.same.stored]
      rw [List.filter_cons_of_pos (by simp), seen_cons, seen_cons, hview, hseen]
      exact ⟨rfl, hend⟩
    · have hheld := run_other hQ hk _ _ e l ⟨rfl, rfl, h.same.kept⟩
      have hafter : Alike Q key ((run k e).after l) l' :=
        ⟨h.strand.trans hheld.strand.symm, h.same.stored.trans hheld.holding.stored.symm,
          hheld.holding.kept, h.same.kept'⟩
      obtain ⟨hseen, hend⟩ := ih hafter
      rw [List.filter_cons_of_neg (by simpa using hk), seen_cons, if_neg hk, List.nil_append]
      exact ⟨hseen, hend⟩

/--
**Streams that share a store do not interfere.**

Many streams keep their positions in the store of one host, each under its own key,
and their owners open, call and reset them in any order. Each owner sees what they
would see without the others, on any host that holds the same for their stream:
their errands end alike and with the same faults, after each of them the stream has
emitted the same, stands at the same position and has the same position stored, and
so it does after the errands of the others that come last. It does not matter what
is stored for the others, or whether that is corrupt. No file call fails on either
host.
-/
theorem isolated {key : Text} {l l' : Logged (Pool Host)} (hl : l.state.store.Unfailing)
    (hl' : l'.state.store.Unfailing) (hstrand : l'.state.streams key = l.state.streams key)
    (hstored : l'.state.store.load key = l.state.store.load key)
    (errands : List (Text × Errand)) :
    let own := errands.filter fun e => e.1 = key
    seen key l errands = seen key l' own
      ∧ (afterErrands l errands).state.streams key = (afterErrands l' own).state.streams key
      ∧ (afterErrands l errands).state.store.load key =
        (afterErrands l' own).state.store.load key := by
  obtain ⟨hseen, hend⟩ := seen_alone Host.reliable ⟨hstrand, hstored, hl, hl'⟩ errands
  exact ⟨hseen, hend.strand.symm, hend.same.stored.symm⟩

/-- Errands for a stream that resumes and takes a change, and for one whose entry is corrupt. -/
def mixedErrands : List (Text × Errand) :=
  let change (n : Sequence) : Change := ⟨"t", .insert, .known n, [], none, some []⟩
  [("b", .openStream none false), ("a", .openStream (some (.always .accept)) false),
    ("b", .reset ⟨none, some (.known 9), true⟩), ("a", .call (.advance (change 501))),
    ("b", .openStream none false), ("a", .reset ⟨some (.known 501), some (.known 120), false⟩),
    ("b", .call (.advance (change 10))), ("a", .call (.advance (change 300))),
    ("b", .call (.commit (.known 10)))]

/-- What the owner of the first of them sees is what they see on a machine of their own, with the
store in memory. -/
theorem isolated_beside_corrupt_entry :
    let file : FileStore := ⟨⟨.here, ["resume.json"]⟩, true, Keyed.ofList [("a", 500)],
      Keyed.ofList [("b", .text "oops")]⟩
    let l : Logged (Pool Host) := ⟨⟨⟨Disk.empty, .file file⟩, fun _ => none⟩, []⟩
    let l' : Logged (Pool Host) :=
      ⟨⟨⟨Disk.empty, .memory ⟨Keyed.ofList [("a", 500)]⟩⟩, fun _ => none⟩, []⟩
    l.state.store.Unfailing ∧ l'.state.store.Unfailing
      ∧ (l.state.store.load "b").toOption = none
      ∧ seen "a" l mixedErrands = seen "a" l' (mixedErrands.filter fun e => e.1 = "a")
      ∧ (seen "a" l mixedErrands).map (fun v => (v.ended.toOption.isSome, v.stored.toOption)) =
        [(true, some (.known 500)), (true, some (.known 501)), (true, some (.known 120)),
          (false, some (.known 120))] := by
  intro file l l'
  have hbeside : Disk.empty.locate (Disk.stagedPath ⟨.here, ["resume.json"]⟩) =
      .ok ⟨false, [".resume.json.________"]⟩ := rfl
  have hfree : Disk.empty.node? file.path.target = none := rfl
  have hwritable : Disk.empty.Writable file.path :=
    ⟨⟨by decide, by decide, by decide⟩, rfl, ⟨_, hbeside⟩, hfree ▸ nofun⟩
  have hl : l.state.store.Unfailing := Host.unfailing_of_writable hwritable
  have hl' : l'.state.store.Unfailing := Host.unfailing_memory Disk.empty _
  have hstrand : l'.state.streams "a" = l.state.streams "a" := rfl
  have hstored : l'.state.store.load "a" = l.state.store.load "a" := rfl
  refine ⟨hl, hl', rfl, (isolated (l := l) hl hl' hstrand hstored mixedErrands).1, ?_⟩
  decide +kernel

end Pool

end Changefeed
