import Changefeed.Proofs.Checkpoint.Durable

/-!
# Two stores on one file

Each store on a checkpoint file works on a copy of its own and replaces the file
as a whole by what its copy knows. Of the stream of another store it knows what
the file said when it was opened, and it writes that again with every position of
its own. So of two stores on one file, each with a stream of its own, the file says
what the store knows that wrote last: the stream of the other one is back where it
was when both were open (`reopened_shared`). Nothing gets lost as long as only one
of the two has anything to write.
-/

namespace Changefeed

/-- One of the two stores on a file, and whoever uses it. -/
inductive Party where
  | first
  | second
deriving DecidableEq

namespace Party

/-- The other one. -/
def other : Party → Party
  | first => second
  | second => first

@[simp] theorem other_other (v : Party) : v.other.other = v := by cases v <;> rfl

@[simp] theorem ne_other (v : Party) : v ≠ v.other := by cases v <;> simp [other]

theorem eq_or_eq_other (v w : Party) : w = v ∨ w = v.other := by
  cases v <;> cases w <;> simp [other]

end Party

/-- What a party asks of its store, always for its own stream. -/
inductive Request where
  | load
  | save (p : Position)

/-- The call that is made of a request for a stream. -/
def Request.call (key : Text) : Request → StoreCall
  | load => .load key
  | save p => .save key p

/-- Two stores beside the disk that both were opened on. -/
structure Shared where
  first : FileStore
  second : FileStore
  disk : Disk

namespace Shared

/-- The store of a party, beside the disk. -/
def mounted (s : Shared) : Party → Mounted
  | .first => ⟨s.first, s.disk⟩
  | .second => ⟨s.second, s.disk⟩

/-- What has become of the store of a party and of the disk. -/
def put (m : Mounted) (s : Shared) : Party → Shared
  | .first => { s with first := m.store, disk := m.disk }
  | .second => { s with second := m.store, disk := m.disk }

@[simp] theorem mounted_disk (s : Shared) (w : Party) : (s.mounted w).disk = s.disk := by
  cases w <;> rfl

@[simp] theorem put_mounted (s : Shared) (w : Party) : s.put (s.mounted w) w = s := by
  cases w <;> rfl

@[simp] theorem put_disk (m : Mounted) (s : Shared) (w : Party) : (s.put m w).disk = m.disk := by
  cases w <;> rfl

@[simp] theorem mounted_put_self (m : Mounted) (s : Shared) (w : Party) :
    (s.put m w).mounted w = m := by
  cases w <;> rfl

@[simp] theorem mounted_put_other (m : Mounted) (s : Shared) (w : Party) :
    (s.put m w).mounted w.other = ⟨(s.mounted w.other).store, m.disk⟩ := by
  cases w <;> rfl

/-- A request by one of the parties. -/
abbrev Turn := Party × Request

variable (key : Party → Text)

/-- A party has a request fulfilled for the stream under its key. -/
def turn (t : Turn) : Act Shared Unit :=
  (FileStore.call (t.2.call (key t.1))).within (·.mounted t.1) fun m s => s.put m t.1

/-- The stores and their disk after some turns. -/
def afterTurns (l : Logged Shared) (turns : List Turn) : Logged Shared :=
  turns.foldl (fun l t => (turn key t).after l) l

/-- No file call fails in the course of the turns. -/
def Unbroken : Logged Shared → List Turn → Prop
  | _, [] => True
  | l, t :: turns =>
    FileStore.failure? (l.state.mounted t.1) (t.2.call (key t.1)) = none
      ∧ Unbroken ((turn key t).after l) turns

/-- The position of its stream that each party can load, if any can be. -/
def loaded? (s : Shared) (w : Party) : Option Position :=
  ((s.mounted w).store.load (key w)).toOption

/-- Both stores are open on a path. The first one may have been in use before the second one was
opened, and nothing has been left unwritten. -/
inductive Opening (path : Path) : Logged Shared → Prop
  | both {durable durable' : Bool} {first second : FileStore} {s t u : Logged Disk}
      {m : Logged Mounted} {alone : List Request}
      (opened : FileStore.openAt path durable s = .ok first t)
      (settled : FileStore.Settled ⟨⟨first, t.state⟩, t.notices⟩
        (alone.map (·.call (key .first))))
      (used : FileStore.afterCalls ⟨⟨first, t.state⟩, t.notices⟩
        (alone.map (·.call (key .first))) = m)
      (joined : FileStore.openAt path durable' ⟨m.state.disk, m.notices⟩ = .ok second u) :
      Opening path ⟨⟨m.state.store, second, u.state⟩, u.notices⟩

variable {key}

/-! ## What was saved -/

/-- The position that a party saves in a turn, if it does. -/
def saved? (w : Party) : Turn → Option Position
  | (v, .save p) => if v = w then some p else none
  | (_, .load) => none

/-- The greatest position that a party saved, or where its stream was before. There is none for a
stream whose entry is corrupt: it cannot be saved either. -/
def greatest (start : Party → Option Position) (turns : List Turn) (w : Party) : Option Position :=
  (start w).map fun q => (turns.filterMap (saved? w)).foldl max q

/-- Whether a turn takes a stream beyond where it was. -/
def moves (start : Party → Option Position) : Turn → Bool
  | (w, .save p) => (start w).any (· < p)
  | (_, .load) => false

/-- Whose turns took their streams beyond all that was saved before, turn by turn. -/
def movers (start : Party → Option Position) : List Turn → List Party
  | [] => []
  | t :: turns => (if moves start t then [t.1] else []) ++ movers (greatest start [t]) turns

variable {start : Party → Option Position} {t : Turn} {turns : List Turn} {w : Party}

theorem moves_save {p : Position} :
    moves start (w, .save p) = true ↔ ∃ q, start w = some q ∧ q < p := by
  unfold moves
  simp only [Option.any_eq_true, decide_eq_true_eq]

@[simp] theorem greatest_nil : greatest start [] = start := by
  funext w
  exact congrFun Option.map_id (start w)

theorem greatest_cons : greatest start (t :: turns) = greatest (greatest start [t]) turns := by
  funext w
  unfold greatest
  rw [← List.singleton_append, List.filterMap_append, Option.map_map]
  exact congrArg (Option.map · (start w)) (funext fun q => List.foldl_append)

/-- A turn that does not take a stream further leaves all as they were. -/
theorem greatest_of_still (h : moves start t = false) : greatest start [t] = start := by
  funext w
  obtain ⟨v, r⟩ := t
  cases r with
  | load => exact congrFun Option.map_id (start w)
  | save p =>
    unfold greatest saved?
    by_cases hv : v = w
    · subst hv
      cases hq : start v with
      | none => rfl
      | some q =>
        have hle : p ≤ q := by simpa [moves, hq] using h
        simp [hle]
    · simp [hv]

/-- One that does takes the stream of its party to what is saved, and no other one. -/
theorem greatest_of_moves {p : Position} (h : moves start (w, .save p) = true) :
    greatest start [(w, .save p)] w = some p
      ∧ greatest start [(w, .save p)] w.other = start w.other := by
  obtain ⟨q, hq, hlt⟩ := moves_save.1 h
  unfold greatest saved?
  simp [hq, le_of_lt hlt]

/-- The stream of a party is where it was exactly if no turn of the party took it further. -/
theorem greatest_eq_iff : greatest start turns w = start w ↔ w ∉ movers start turns := by
  induction turns generalizing start with
  | nil => simp [movers]
  | cons t turns ih =>
    rw [greatest_cons, movers]
    cases hm : moves start t with
    | false =>
      rw [greatest_of_still hm]
      simpa using ih
    | true =>
      obtain ⟨v, r⟩ := t
      cases r with
      | load => cases hm
      | save p =>
        obtain ⟨hself, hother⟩ := greatest_of_moves hm
        rcases v.eq_or_eq_other w with rfl | rfl
        · -- the position has been passed for good
          obtain ⟨q, hq, hlt⟩ := moves_save.1 hm
          have hne : greatest (greatest start [(w, .save p)]) turns w ≠ start w := by
            have hle : p ≤ (turns.filterMap (saved? w)).foldl max p := (foldl_max_le.1 (le_refl _)).1
            rw [greatest, hself, hq]
            intro h
            exact absurd (Option.some.inj h) (ne_of_gt (lt_of_lt_of_le hlt hle))
          simp [hne]
        · have hrest : greatest (greatest start [(v, .save p)]) turns v.other =
                greatest start [(v, .save p)] v.other
              ↔ v.other ∉ movers (greatest start [(v, .save p)]) turns := ih
          rw [hother] at hrest
          rw [hrest]
          simp [Ne.symm (Party.ne_other v)]

/-- With the stream of whoever did not move last back where it was, all is kept exactly if one of
the two never moved. -/
theorem kept_iff :
    (∀ w, (if (movers start turns).getLast? = some w.other then start w
        else greatest start turns w) = greatest start turns w) ↔
      ∃ w, greatest start turns w = start w := by
  constructor
  · intro hkept
    cases hlast : (movers start turns).getLast? with
    | none =>
      rw [List.getLast?_eq_none_iff] at hlast
      exact ⟨.first, greatest_eq_iff.2 (by rw [hlast]; exact List.not_mem_nil)⟩
    | some v =>
      have hother := hkept v.other
      rw [hlast, Party.other_other, if_pos rfl] at hother
      exact ⟨v.other, hother.symm⟩
  · rintro ⟨v, hv⟩ w
    split
    · rename_i hlast
      -- whoever moved last is not the one that never did
      have hmoved : w.other ∈ movers start turns := List.mem_of_getLast? hlast
      rcases v.eq_or_eq_other w with rfl | rfl
      · exact hv.symm
      · rw [Party.other_other] at hmoved
        exact absurd hmoved (greatest_eq_iff.1 hv)
    · rfl

end Shared

/-! ## A call that writes -/

namespace FileStore

theorem toOption_eq_some {α : Type} {e : Except Fault α} {a : α} :
    e.toOption = some a ↔ e = .ok a := by
  cases e <;> simp [Except.toOption]

/-- A file that is in step with a store has the same streams at the same positions. -/
theorem InStep.toOption {path : Path} {m : Mounted} (h : InStep path m) (key : Text) :
    (recorded path key m.disk).toOption = (m.store.load key).toOption := by
  refine Option.ext fun q => ?_
  rw [toOption_eq_some, toOption_eq_some]
  exact h key q

/-- A store that is behind a position has it written. -/
theorem written?_of_behind {s : FileStore} {key : Text} {q : Position} {n : Sequence}
    (h : s.load key = .ok q) (hlt : q < .known n) :
    s.written? (.save key (.known n)) = some (s.put key n) := by
  obtain ⟨hcorrupt, hq⟩ := load_eq_ok.1 h
  have hrefusal : s.refusal? (.save key (.known n)) = none := corruption?_eq_none.2 hcorrupt
  have hcovers : ¬FileStore.covers (s.positions.get? key) n = true := by
    rw [covers_iff, hq]
    exact not_le.2 hlt
  rw [written?_of_none hrefusal]
  exact if_neg hcovers

/-- A call that writes, and in the course of which nothing fails, puts the file in step with what
it makes of the copy. -/
theorem Opened.written {path : Path} {m : Logged Mounted} (ho : Opened path m.state) {c : StoreCall}
    {s : FileStore} (h : m.state.store.written? c = some s) (hok : failure? m.state c = none) :
    ((FileStore.call c).after m).state.store = s
      ∧ InStep path ((FileStore.call c).after m).state := by
  cases call_ending c m with
  | refused refusal run =>
    rw [written?_of_refusal refusal] at h
    cases h
  | needless refusal written run =>
    rw [written] at h
    cases h
  | replaced refusal written failure run store disk =>
    rw [Act.after_of_ok run]
    rw [h] at written
    cases written
    have hpath : s.path = path := (path_of_written? h).trans ho.onPath
    rw [hpath] at disk
    refine ⟨store, fun key q => ?_⟩
    rw [recorded_of_written (ho.sound.written h) disk.contentAt, store]
  | unforced refusal written failure run store disk =>
    rw [hok] at failure
    cases failure
  | failed refusal written failure early run store disk =>
    rw [hok] at failure
    cases failure

/-- A save of a position that the store is behind, in the course of which nothing fails, puts the
file in step with a store that has this stream there, and the others where they were. -/
theorem Opened.save {path : Path} {m m' : Logged Mounted} (ho : Opened path m.state) {key : Text}
    {q : Position} {n : Sequence} (hload : m.state.store.load key = .ok q) (hlt : q < .known n)
    (hok : failure? m.state (.save key (.known n)) = none)
    (hm : (FileStore.call (.save key (.known n))).after m = m') :
    Opened path m'.state ∧ InStep path m'.state ∧ m'.state.store.load key = .ok (.known n)
      ∧ ∀ key', key ≠ key' → m'.state.store.load key' = m.state.store.load key' := by
  subst hm
  obtain ⟨hstore, hin⟩ := ho.written (written?_of_behind hload hlt) hok
  rw [hstore]
  exact ⟨ho.call _, hin, load_put_self hload, fun key' hne => load_put_of_ne _ hne n⟩

end FileStore

namespace Shared

/-! ## A turn -/

open FileStore

variable {path : Path} {key : Party → Text} {start reached : Party → Option Position}
  {last : Option Party} {l : Logged Shared} {t : Turn} {turns : List Turn}

/-- What two stores on a path and the file say, `start` being where the streams were when both were
open, `reached` the greatest positions that were saved since, and `last` the party that wrote last. -/
structure Holds (path : Path) (key : Party → Text) (start reached : Party → Option Position)
    (last : Option Party) (s : Shared) : Prop where
  opened : ∀ w, Opened path (s.mounted w)
  own : ∀ w, s.loaded? key w = reached w
  /-- Of the other stream a store knows what it was when both were open. -/
  other : ∀ w, ((s.mounted w).store.load (key w.other)).toOption = start w.other
  file : ∀ w, (recorded path (key w) s.disk).toOption =
    if last = some w.other then start w else reached w

theorem Opening.holds (h : Opening key path l) :
    Holds path key (l.state.loaded? key) (l.state.loaded? key) none l.state := by
  cases h with
  | @both _ _ first second _ t u m _ hopen settled used joined =>
    have hm : Opened path m.state ∧ InStep path m.state := by
      obtain ⟨ho, hin⟩ := opened hopen
      rw [← used]
      exact ⟨opened_afterCalls (m := ⟨⟨first, t.state⟩, t.notices⟩) ho _,
        inStep_afterCalls (m := ⟨⟨first, t.state⟩, t.notices⟩) ho hin settled⟩
    have hu : Opened path ⟨second, u.state⟩ ∧ InStep path ⟨second, u.state⟩ := opened joined
    have hdisk : u.state = m.state.disk := openAt_leaves_disk hm.1.ready joined
    have hfirst : Opened path ⟨m.state.store, u.state⟩ ∧ InStep path ⟨m.state.store, u.state⟩ := by
      rw [hdisk]
      exact hm
    have hloads : ∀ key : Text,
        (m.state.store.load key).toOption = (second.load key).toOption := by
      intro key
      exact (hfirst.2.toOption key).symm.trans (hu.2.toOption key)
    constructor
    case opened =>
      intro w
      cases w with
      | first => exact hfirst.1
      | second => exact hu.1
    case own =>
      intro w
      rfl
    case other =>
      intro w
      cases w with
      | first => exact hloads (key .second)
      | second => exact (hloads (key .first)).symm
    case file =>
      intro w
      cases w with
      | first => exact hfirst.2.toOption (key .first)
      | second => exact hu.2.toOption (key .second)

/-- A request that takes no stream further changes nothing. -/
theorem Holds.still (h : Holds path key start reached last l.state) (ht : moves reached t = false) :
    ((turn key t).after l).state = l.state := by
  obtain ⟨v, r⟩ := t
  have hcall : (call (r.call (key v))).after ⟨l.state.mounted v, l.notices⟩ =
      ⟨l.state.mounted v, l.notices⟩ := by
    cases r with
    | load =>
      have hrun := load_run (key v) ⟨l.state.mounted v, l.notices⟩
      cases hc : (l.state.mounted v).store.corruption? (key v) with
      | none => rw [hc] at hrun; exact Act.after_of_ok hrun
      | some f => rw [hc] at hrun; exact Act.after_of_error hrun
    | save p =>
      cases p with
      | null => rfl
      | known n =>
        rcases save_cases (key v) n ⟨l.state.mounted v, l.notices⟩ with
          ⟨f, _, hs⟩ | ⟨q, _, _, hs⟩ | ⟨q, hq, hlt, _⟩
        · exact Act.after_of_error hs
        · exact Act.after_of_ok hs
        · have hmoves : moves reached (v, .save (.known n)) = true :=
            moves_save.2 ⟨q, (h.own v).symm.trans (toOption_eq_some.2 hq), hlt⟩
          rw [ht] at hmoves
          cases hmoves
  unfold turn
  rw [Act.after_within, hcall, put_mounted]

/-- One that does is written, and with it what the store knows of the other stream. -/
theorem Holds.moved (hkey : key .first ≠ key .second)
    (h : Holds path key start reached last l.state) (ht : moves reached t = true)
    (hok : failure? (l.state.mounted t.1) (t.2.call (key t.1)) = none) :
    Holds path key start (greatest reached [t]) (some t.1) ((turn key t).after l).state := by
  obtain ⟨v, r⟩ := t
  cases r with
  | load => cases ht
  | save p =>
    obtain ⟨q, hq, hlt⟩ := moves_save.1 ht
    obtain ⟨hself, hother⟩ := greatest_of_moves ht
    obtain ⟨n, rfl⟩ : ∃ n, p = .known n := by
      cases p with
      | null => exact absurd (Position.null_le q) (not_le.2 hlt)
      | known n => exact ⟨n, rfl⟩
    have hload : (l.state.mounted v).store.load (key v) = .ok q :=
      toOption_eq_some.1 ((h.own v).trans hq)
    have hkeys : key v ≠ key v.other := by
      cases v with
      | first => exact hkey
      | second => exact hkey.symm
    -- what has become of the store and of the disk
    let m := (call (.save (key v) (.known n))).after ⟨l.state.mounted v, l.notices⟩
    obtain ⟨ho, hin, hown, hothers⟩ : Opened path m.state ∧ InStep path m.state
        ∧ m.state.store.load (key v) = .ok (.known n)
        ∧ ∀ k, key v ≠ k → m.state.store.load k = (l.state.mounted v).store.load k :=
      Opened.save (m := ⟨l.state.mounted v, l.notices⟩) (h.opened v) hload hlt hok rfl
    have hown : (m.state.store.load (key v)).toOption = some (.known n) := toOption_eq_some.2 hown
    have hrest : (m.state.store.load (key v.other)).toOption = start v.other := by
      rw [hothers _ hkeys]
      exact h.other v
    have hturn : ((turn key (v, .save (.known n))).after l).state = l.state.put m.state v :=
      Act.after_within ..
    rw [hturn]
    constructor
    case opened =>
      intro w
      rcases v.eq_or_eq_other w with rfl | rfl
      · rw [mounted_put_self]
        exact ho
      · rw [mounted_put_other]
        exact ⟨(h.opened v.other).onPath, (h.opened v.other).sound, ho.ready⟩
    case own =>
      intro w
      unfold loaded?
      rcases v.eq_or_eq_other w with rfl | rfl
      · rw [mounted_put_self, hself]
        exact hown
      · rw [mounted_put_other, hother]
        exact h.own v.other
    case other =>
      intro w
      rcases v.eq_or_eq_other w with rfl | rfl
      · rw [mounted_put_self]
        exact hrest
      · rw [mounted_put_other]
        exact h.other v.other
    case file =>
      intro w
      rw [put_disk, hin.toOption]
      rcases v.eq_or_eq_other w with rfl | rfl
      · rw [hown, hself, if_neg]
        exact fun e => absurd (Option.some.inj e) (Party.ne_other _)
      · rw [hrest, if_pos (by rw [Party.other_other])]

theorem Holds.afterTurns (hkey : key .first ≠ key .second)
    (h : Holds path key start reached last l.state) (hok : Unbroken key l turns) :
    Holds path key start (greatest reached turns) ((movers reached turns).getLast?.or last)
      (afterTurns key l turns).state := by
  induction turns generalizing l reached last with
  | nil =>
    rw [greatest_nil]
    exact h
  | cons t turns ih =>
    rw [greatest_cons, movers]
    cases ht : moves reached t with
    | false =>
      rw [greatest_of_still ht]
      refine ih ?_ hok.2
      rwa [h.still ht]
    | true =>
      have hrest := ih (h.moved hkey ht hok.1) hok.2
      rw [if_pos rfl, List.getLast?_append, Option.or_assoc]
      exact hrest

/-- A new store says what the file says. -/
theorem Holds.reopened {s : Shared} (h : Holds path key start reached last s) (w : Party) :
    (reopened path (key w) s.disk).toOption = if last = some w.other then start w else reached w := by
  have hready : Ready path s.disk := by
    have hfirst := (h.opened .first).ready
    rwa [mounted_disk] at hfirst
  rw [reopened_of_ready hready]
  exact h.file w

/--
**Two stores on one file.**

Two stores are open on a path, whatever is in the file there, each in use for a
stream of its own, and loads and saves by the two follow in any order, without a
file call that fails. A store that is then newly opened on the path has the stream
of the party that wrote last at the greatest position that was saved of it, and the
other stream where it was when both were open. So nothing that was saved is lost
exactly if one of the two never took its stream any further.
-/
theorem reopened_shared (hkey : key .first ≠ key .second) (hopen : Opening key path l)
    (turns : List Turn) (hok : Unbroken key l turns) :
    let start := l.state.loaded? key
    let d := (afterTurns key l turns).state.disk
    (∀ w, (reopened path (key w) d).toOption =
        if (movers start turns).getLast? = some w.other then start w else greatest start turns w)
      ∧ ((∀ w, (reopened path (key w) d).toOption = greatest start turns w) ↔
        ∃ w, greatest start turns w = start w) := by
  intro start d
  have h : Holds path key start (greatest start turns) ((movers start turns).getLast?.or none)
      (afterTurns key l turns).state := hopen.holds.afterTurns hkey hok
  rw [Option.or_none] at h
  have hfile : ∀ w, (reopened path (key w) d).toOption =
      if (movers start turns).getLast? = some w.other then start w else greatest start turns w :=
    h.reopened
  refine ⟨hfile, ?_⟩
  simp only [hfile]
  exact kept_iff

/-- A key for each of the two. -/
def twoKeys : Party → Text
  | .first => "a"
  | .second => "b"

/-- Two stores that were opened on a path where no file is. -/
def fresh : Shared :=
  ⟨blank ⟨.here, ["resume.json"]⟩ true, blank ⟨.here, ["resume.json"]⟩ false, Disk.empty⟩

theorem opening_fresh : Opening twoKeys ⟨.here, ["resume.json"]⟩ ⟨fresh, []⟩ := by
  have hfirst : openAt ⟨.here, ["resume.json"]⟩ true ⟨Disk.empty, []⟩ =
      .ok fresh.first ⟨Disk.empty, []⟩ := rfl
  have hsecond : openAt ⟨.here, ["resume.json"]⟩ false ⟨Disk.empty, []⟩ =
      .ok fresh.second ⟨Disk.empty, []⟩ := rfl
  have hunused : Settled ⟨⟨fresh.first, Disk.empty⟩, []⟩
      (([] : List Request).map (·.call (twoKeys .first))) := trivial
  exact .both hfirst hunused rfl hsecond

/-- Only one of the two saves, the other one loads in between: nothing gets lost. -/
theorem reopened_shared_by_one_saving :
    let turns : List Turn := [(.first, .save (.known 5)), (.second, .load),
      (.second, .save .null), (.first, .save (.known 8)), (.first, .save (.known 6))]
    let d := (afterTurns twoKeys ⟨fresh, []⟩ turns).state.disk
    twoKeys .first ≠ twoKeys .second ∧ Opening twoKeys ⟨.here, ["resume.json"]⟩ ⟨fresh, []⟩
      ∧ Unbroken twoKeys ⟨fresh, []⟩ turns
      ∧ (reopened ⟨.here, ["resume.json"]⟩ "a" d).toOption = some (.known 8)
      ∧ (reopened ⟨.here, ["resume.json"]⟩ "b" d).toOption = some .null := by
  intro turns d
  have hkey : twoKeys .first ≠ twoKeys .second := by simp [twoKeys]
  have hok : Unbroken twoKeys ⟨fresh, []⟩ turns := ⟨rfl, rfl, rfl, rfl, rfl, trivial⟩
  obtain ⟨_, hkept⟩ := reopened_shared hkey opening_fresh turns hok
  have hboth := hkept.2 ⟨.second, rfl⟩
  exact ⟨hkey, opening_fresh, hok, hboth .first, hboth .second⟩

/-- Both save, one after the other: what the first one saved is gone. -/
theorem saved_by_first_and_lost :
    let turns : List Turn := [(.first, .save (.known 5)), (.second, .save (.known 7))]
    let d := (afterTurns twoKeys ⟨fresh, []⟩ turns).state.disk
    Opening twoKeys ⟨.here, ["resume.json"]⟩ ⟨fresh, []⟩ ∧ Unbroken twoKeys ⟨fresh, []⟩ turns
      ∧ greatest (fresh.loaded? twoKeys) turns .first = some (.known 5)
      ∧ (reopened ⟨.here, ["resume.json"]⟩ "a" d).toOption = some .null := by
  refine ⟨opening_fresh, ⟨rfl, rfl, trivial⟩, by decide, by decide +kernel⟩

end Shared

end Changefeed
