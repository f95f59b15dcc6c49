import Changefeed.Data.Shown
import Changefeed.Proofs.Action
import Changefeed.Proofs.Json.Numbers
import Changefeed.Proofs.Json.Strings
import Changefeed.Proofs.Keyed

/-!
# Documents read back

What is written of a document is read back as the same document, but for the
order of the fields of its records: they come back in ascending order of their
names (`normal`). This holds of every document that can be read at all
(`Readable`): its whole numbers are not too long, a double that is no number is
the usual one, and no record has two fields with one name.
-/

namespace Changefeed.Json

/-! ## What is read back -/

mutual

/-- A document with the fields of its records in ascending order of their names. -/
def normal : Json → Json
  | .null => .null
  | .bool b => .bool b
  | .int n => .int n
  | .float x => .float x
  | .text t => .text t
  | .list items => .list (normalItems items)
  | .record fields => .record (sortFields (normalFields fields))
  | .mark m => nomatch m

/-- The items of a list, each in that form. -/
def normalItems : List Json → List Json
  | [] => []
  | x :: rest => normal x :: normalItems rest

/-- The fields of a record, each in that form. -/
def normalFields : List (Text × Json) → List (Text × Json)
  | [] => []
  | (k, x) :: rest => (k, normal x) :: normalFields rest

end

/-- A document that a text can hold. -/
inductive Readable : Json → Prop
  | null : Readable .null
  | bool (b : Bool) : Readable (.bool b)
  | int (n : Int) : Text.Decimal.isShort n = true → Readable (.int n)
  | float (x : Double) : (x.isNaN = true → x = .nan) → Readable (.float x)
  | text (t : Text) : Readable (.text t)
  | list (items : List Json) : (∀ x ∈ items, Readable x) → Readable (.list items)
  | record (fields : List (Text × Json)) :
      (fields.map Prod.fst).Nodup → (∀ f ∈ fields, Readable f.2) → Readable (.record fields)

theorem areWritable_of_forall {items : List Json} (h : ∀ x ∈ items, x.isWritable = true) :
    Data.areWritable items = true := by
  induction items with
  | nil => rfl
  | cons x rest ih =>
    rw [Data.areWritable, h x List.mem_cons_self, ih fun y hy => h y (List.mem_cons_of_mem _ hy)]
    rfl

theorem holdWritable_of_forall {fields : List (Text × Json)} (h : ∀ f ∈ fields, f.2.isWritable = true) :
    Data.holdWritable fields = true := by
  induction fields with
  | nil => rfl
  | cons f rest ih =>
    rw [Data.holdWritable, h f List.mem_cons_self, ih fun g hg => h g (List.mem_cons_of_mem _ hg)]
    rfl

/-- No whole number in a document is too long to be written. -/
theorem Readable.isWritable {j : Json} (hj : Readable j) : j.isWritable = true := by
  induction hj with
  | null => rfl
  | bool b => rfl
  | int n hn => exact hn
  | float x _ => rfl
  | text t => rfl
  | list items _ ih => exact areWritable_of_forall ih
  | record fields _ _ ih => exact holdWritable_of_forall ih

/-! ## Parts of what is written -/

/-- A field as it is written. -/
def fieldChars (f : Text × Json) : List Char := stringChars f.1 ++ ':' :: ' ' :: writeValue f.2

theorem normalItems_eq (items : List Json) : normalItems items = items.map normal := by
  induction items with
  | nil => rfl
  | cons x rest ih => rw [normalItems, ih, List.map_cons]

theorem normalFields_eq (fields : List (Text × Json)) :
    normalFields fields = fields.map fun f => (f.1, normal f.2) := by
  induction fields with
  | nil => rfl
  | cons f rest ih => rw [normalFields, ih, List.map_cons]

theorem writeItems_eq (items : List Json) : writeItems items = items.map writeValue := by
  induction items with
  | nil => rfl
  | cons x rest ih => rw [writeItems, ih, List.map_cons]

theorem writeFields_eq (fields : List (Text × Json)) :
    writeFields fields = fields.map fun f => (f.1, fieldChars f) := by
  induction fields with
  | nil => rfl
  | cons f rest ih =>
    rw [writeFields, ih, List.map_cons]
    rfl

/-- Fields are put in order by their names alone. -/
theorem sortFields_map {α β : Type} (g : Text × α → β) (fields : List (Text × α)) :
    sortFields (fields.map fun f => (f.1, g f)) = (sortFields fields).map fun f => (f.1, g f) := by
  unfold sortFields
  rw [List.map_mergeSort]
  intros
  rfl

theorem sortFields_perm {α : Type} (fields : List (Text × α)) : (sortFields fields).Perm fields :=
  List.mergeSort_perm fields _

theorem normal_record (fields : List (Text × Json)) :
    normal (.record fields) = .record ((sortFields fields).map fun f => (f.1, normal f.2)) := by
  rw [normal, normalFields_eq, sortFields_map]

/-- A record whose fields are in order, and in which everything else is, stays as it is. -/
theorem normal_record_of_sorted {fields : List (Text × Json)}
    (hsorted : fields.Pairwise fun f g => decide (f.1 ≤ g.1) = true)
    (hn : ∀ f ∈ fields, normal f.2 = f.2) : normal (.record fields) = .record fields := by
  have hmap : fields.map (fun f => (f.1, normal f.2)) = fields.map id :=
    List.map_congr_left fun f hf => by rw [hn f hf]; rfl
  rw [normal_record, sortFields, List.mergeSort_of_pairwise hsorted, hmap, List.map_id]

theorem writeValue_record (fields : List (Text × Json)) :
    writeValue (.record fields) = '\x7b' :: separated ((sortFields fields).map fieldChars) ++ ['\x7d'] := by
  rw [writeValue, writeFields_eq, sortFields_map, List.map_map]
  rfl

/-! ## How parts begin -/

/-- There is something here, and it is neither white space nor the end of a list or a record. -/
def Begins (cs : List Char) : Prop :=
  ∃ c rest, cs = c :: rest ∧ isSpace c = false ∧ c ≠ ']' ∧ c ≠ '\x7d'

theorem Begins.append {cs : List Char} (h : Begins cs) (rest : List Char) : Begins (cs ++ rest) := by
  obtain ⟨c, cs', rfl, hc⟩ := h
  exact ⟨c, cs' ++ rest, rfl, hc⟩

theorem Begins.skipSpace {cs : List Char} (h : Begins cs) : skipSpace cs = cs := by
  obtain ⟨c, rest, rfl, hc, _⟩ := h
  unfold Json.skipSpace
  rw [List.dropWhile_cons_of_neg (by simp [hc])]

theorem Begins.skipSpace_cons {cs : List Char} (h : Begins cs) : Json.skipSpace (' ' :: cs) = cs :=
  h.skipSpace

/-- What is read as a word or a number begins as no other part does. -/
theorem readScalar_begins {cs : List Char} {r : Json × List Char} (h : readScalar cs = .ok r) :
    Begins cs ∧ ∀ rest, cs ≠ '"' :: rest ∧ cs ≠ '[' :: rest ∧ cs ≠ '\x7b' :: rest := by
  have hne : ∀ c ∈ ['"', '[', '\x7b', ' ', '\t', '\n', '\r', ']', '\x7d'], ∀ rest, cs ≠ c :: rest := by
    intro c hc rest hcs
    rw [hcs] at h
    simp only [List.mem_cons, List.not_mem_nil, or_false] at hc
    rcases hc with rfl | rfl | rfl | rfl | rfl | rfl | rfl | rfl | rfl <;> cases h
  cases cs with
  | nil => cases h
  | cons c rest =>
    have hc : ∀ d ∈ ['"', '[', '\x7b', ' ', '\t', '\n', '\r', ']', '\x7d'], c ≠ d := by
      rintro d hd rfl
      exact hne c hd rest rfl
    refine ⟨⟨c, rest, rfl, ?_, hc _ (by simp), hc _ (by simp)⟩, fun rest' =>
      ⟨hne _ (by simp) _, hne _ (by simp) _, hne _ (by simp) _⟩⟩
    simp [isSpace, hc ' ' (by simp), hc '\t' (by simp), hc '\n' (by simp), hc '\r' (by simp)]

/-! ## Reading parts -/

/-- A scalar is read back as a word or a number. -/
theorem readScalar_writeValue {j : Json} (hj : Readable j) (rest : List Char) (hr : Closed rest) :
    (∃ t, j = .text t) ∨ (∃ items, j = .list items) ∨ (∃ fields, j = .record fields)
      ∨ readScalar (writeValue j ++ rest) = .ok (normal j, rest) := by
  cases hj with
  | null => exact .inr (.inr (.inr rfl))
  | bool b => cases b <;> exact .inr (.inr (.inr rfl))
  | int n hn => exact .inr (.inr (.inr (readScalar_int (of_decide_eq_true hn) hr)))
  | float x hx => exact .inr (.inr (.inr (readScalar_double hx hr)))
  | text t => exact .inl ⟨t, rfl⟩
  | list items => exact .inr (.inl ⟨items, rfl⟩)
  | record fields => exact .inr (.inr (.inl ⟨fields, rfl⟩))

theorem begins_quote (cs : List Char) : Begins ('"' :: cs) := ⟨_, _, rfl, rfl, by decide, by decide⟩

theorem begins_writeValue {j : Json} (hj : Readable j) : Begins (writeValue j) := by
  rcases readScalar_writeValue hj [] .nil with ⟨t, rfl⟩ | ⟨items, rfl⟩ | ⟨fields, rfl⟩ | h
  · exact begins_quote _
  · exact ⟨_, _, rfl, rfl, by decide, by decide⟩
  · rw [writeValue_record]
    exact ⟨_, _, rfl, rfl, by decide, by decide⟩
  · rw [List.append_nil] at h
    exact (readScalar_begins h).1

theorem readValue_scalar {cs : List Char} {r : Json × List Char} (h : readScalar cs = .ok r)
    (fuel : Nat) : readValue (fuel + 1) cs = .ok r := by
  have hne := (readScalar_begins h).2
  rw [readValue]
  · exact h
  · exact fun rest he => (hne rest).1 he
  · exact fun rest he => (hne rest).2.1 he
  · exact fun rest he => (hne rest).2.2 he

/-- What reading a value back means. -/
def ReadsBack (j : Json) : Prop :=
  ∀ fuel rest, 2 * (writeValue j).length ≤ fuel → Closed rest →
    readValue fuel (writeValue j ++ rest) = .ok (normal j, rest)

theorem begins_separated {part : List Char} (h : Begins part) (parts : List (List Char)) :
    Begins (separated (part :: parts)) := by
  cases parts with
  | nil => exact h
  | cons p rest => exact h.append _

/-- Behind an item and a comma, more are read. -/
theorem readItems_more {x : Json} {fuel : Nat} {tail rest : List Char} {xs : List Json}
    (ht : Begins tail)
    (hx : readValue fuel (writeValue x ++ ',' :: ' ' :: tail) = .ok (normal x, ',' :: ' ' :: tail))
    (hxs : readItems fuel tail = .ok (xs, rest)) :
    readItems (fuel + 1) (writeValue x ++ ',' :: ' ' :: tail) = .ok (normal x :: xs, rest) := by
  rw [readItems, hx]
  show (readItems fuel (skipSpace (' ' :: tail))).map _ = _
  rw [ht.skipSpace_cons, hxs]
  rfl

/-- Items are read up to the bracket, if each of them is read back. -/
theorem readItems_written {x : Json} {items : List Json} (hb : ∀ y ∈ x :: items, Readable y)
    (h : ∀ y ∈ x :: items, ReadsBack y) {fuel : Nat} (rest : List Char)
    (hf : 2 * (separated ((x :: items).map writeValue)).length < fuel) :
    readItems fuel (separated ((x :: items).map writeValue) ++ ']' :: rest) =
      .ok ((x :: items).map normal, rest) := by
  obtain ⟨fuel, rfl⟩ : ∃ k, fuel = k + 1 := ⟨fuel - 1, by omega⟩
  induction items generalizing x fuel with
  | nil =>
    simp only [separated, List.map_cons, List.map_nil] at hf
    have hx := h x List.mem_cons_self fuel (']' :: rest) (by omega) (.cons (by simp))
    rw [readItems]
    show (readValue fuel (writeValue x ++ ']' :: rest)).bind _ = _
    rw [hx]
    rfl
  | cons y items ih =>
    have hbegins : Begins (separated ((y :: items).map writeValue)) :=
      begins_separated (begins_writeValue (hb y (by simp))) _
    have htext : separated ((x :: y :: items).map writeValue) =
        writeValue x ++ ',' :: ' ' :: separated ((y :: items).map writeValue) := rfl
    rw [htext] at hf ⊢
    -- the comma and the space pay for the fuel that the items behind them need
    simp only [List.length_append, List.length_cons] at hf
    obtain ⟨fuel, rfl⟩ : ∃ k, fuel = k + 1 := ⟨fuel - 1, by omega⟩
    have hrest := ih (fun z hz => hb z (List.mem_cons_of_mem _ hz))
      (fun z hz => h z (List.mem_cons_of_mem _ hz)) fuel (by omega)
    rw [List.append_assoc]
    refine readItems_more (hbegins.append _) ?_ hrest
    exact h x List.mem_cons_self (fuel + 1) _ (by omega) (.cons (by simp))

theorem fieldChars_append (f : Text × Json) (tail : List Char) : fieldChars f ++ tail =
    '"' :: (f.1.units.flatMap escapeUnit ++ '"' :: ':' :: ' ' :: (writeValue f.2 ++ tail)) := by
  simp [fieldChars, stringChars]

theorem length_fieldChars (f : Text × Json) :
    (writeValue f.2).length + 4 ≤ (fieldChars f).length := by
  simp only [fieldChars, stringChars, List.length_append, List.length_cons, List.length_nil]
  omega

/-- A field before the brace is the last one. -/
theorem readFields_last {f : Text × Json} (hb : Readable f.2) {fuel : Nat} {rest : List Char}
    (hx : readValue fuel (writeValue f.2 ++ '\x7d' :: rest) = .ok (normal f.2, '\x7d' :: rest)) :
    readFields (fuel + 1) (fieldChars f ++ '\x7d' :: rest) = .ok ([(f.1, normal f.2)], rest) := by
  have hskip := ((begins_writeValue hb).append ('\x7d' :: rest)).skipSpace_cons
  rw [fieldChars_append, readFields, readString_escaped]
  show (readValue fuel (skipSpace (' ' :: (writeValue f.2 ++ '\x7d' :: rest)))).bind _ = _
  rw [hskip, hx]
  rfl

/-- Behind a field and a comma, more are read. -/
theorem readFields_more {f : Text × Json} (hb : Readable f.2) {fuel : Nat} {tail rest : List Char}
    {fs : List (Text × Json)} (ht : Begins tail)
    (hx : readValue fuel (writeValue f.2 ++ ',' :: ' ' :: tail) =
      .ok (normal f.2, ',' :: ' ' :: tail))
    (hfs : readFields fuel tail = .ok (fs, rest)) :
    readFields (fuel + 1) (fieldChars f ++ ',' :: ' ' :: tail) =
      .ok ((f.1, normal f.2) :: fs, rest) := by
  have hskip := ((begins_writeValue hb).append (',' :: ' ' :: tail)).skipSpace_cons
  rw [fieldChars_append, readFields, readString_escaped]
  show (readValue fuel (skipSpace (' ' :: (writeValue f.2 ++ ',' :: ' ' :: tail)))).bind _ = _
  rw [hskip, hx]
  show (readFields fuel (skipSpace (' ' :: tail))).map _ = _
  rw [ht.skipSpace_cons, hfs]
  rfl

/-- Fields are read up to the brace, if each of their values is read back. -/
theorem readFields_written {f : Text × Json} {fields : List (Text × Json)}
    (hb : ∀ g ∈ f :: fields, Readable g.2) (h : ∀ g ∈ f :: fields, ReadsBack g.2) {fuel : Nat}
    (rest : List Char) (hf : 2 * (separated ((f :: fields).map fieldChars)).length < fuel) :
    readFields fuel (separated ((f :: fields).map fieldChars) ++ '\x7d' :: rest) =
      .ok ((f :: fields).map fun g => (g.1, normal g.2), rest) := by
  obtain ⟨fuel, rfl⟩ : ∃ k, fuel = k + 1 := ⟨fuel - 1, by omega⟩
  induction fields generalizing f fuel with
  | nil =>
    have hlen := length_fieldChars f
    simp only [separated, List.map_cons, List.map_nil] at hf
    exact readFields_last (hb f List.mem_cons_self)
      (h f List.mem_cons_self fuel ('\x7d' :: rest) (by omega) (.cons (by simp)))
  | cons g fields ih =>
    have hbegins : Begins (separated ((g :: fields).map fieldChars)) :=
      begins_separated (begins_quote _) _
    have htext : separated ((f :: g :: fields).map fieldChars) =
        fieldChars f ++ ',' :: ' ' :: separated ((g :: fields).map fieldChars) := rfl
    rw [htext] at hf ⊢
    have hlen := length_fieldChars f
    simp only [List.length_append, List.length_cons] at hf
    obtain ⟨fuel, rfl⟩ : ∃ k, fuel = k + 1 := ⟨fuel - 1, by omega⟩
    have hrest := ih (fun z hz => hb z (List.mem_cons_of_mem _ hz))
      (fun z hz => h z (List.mem_cons_of_mem _ hz)) fuel (by omega)
    rw [List.append_assoc]
    refine readFields_more (hb f List.mem_cons_self) (hbegins.append _) ?_ hrest
    exact h f List.mem_cons_self (fuel + 1) _ (by omega) (.cons (by simp))

/-! ## Reading documents -/

theorem readsBack_list {items : List Json} (hb : ∀ x ∈ items, Readable x)
    (h : ∀ x ∈ items, ReadsBack x) : ReadsBack (.list items) := by
  intro fuel rest hf hr
  rw [writeValue, writeItems_eq] at hf ⊢
  rw [normal, normalItems_eq]
  simp only [List.length_append, List.length_cons, List.length_nil] at hf
  obtain ⟨fuel, rfl⟩ : ∃ k, fuel = k + 1 := ⟨fuel - 1, by omega⟩
  rw [List.append_assoc]
  cases items with
  | nil => rfl
  | cons x items =>
    have hbegins : Begins (separated ((x :: items).map writeValue)) :=
      begins_separated (begins_writeValue (hb x List.mem_cons_self)) _
    have hread := readItems_written hb h rest (show _ < fuel by omega)
    show readValue (fuel + 1) ('[' :: (separated ((x :: items).map writeValue) ++ ']' :: rest)) = _
    have hskip := (hbegins.append (']' :: rest)).skipSpace
    rw [readValue, hskip]
    split
    · rename_i he
      obtain ⟨c, cs, hcs, _, hc, _⟩ := hbegins
      rw [hcs] at he
      injection he with he _
      exact absurd he hc
    · rw [hread]
      rfl

theorem readsBack_record {fields : List (Text × Json)} (hd : (fields.map Prod.fst).Nodup)
    (hb : ∀ f ∈ fields, Readable f.2) (h : ∀ f ∈ fields, ReadsBack f.2) :
    ReadsBack (.record fields) := by
  intro fuel rest hf hr
  have hperm := sortFields_perm fields
  -- a name that is read twice would replace the first field, so the names must be distinct
  have hkeys : (((sortFields fields).map fun f => (f.1, normal f.2)).map Prod.fst).Nodup := by
    rw [List.map_map]
    exact (hperm.map Prod.fst).nodup_iff.2 hd
  rw [writeValue_record] at hf ⊢
  rw [normal_record]
  simp only [List.length_append, List.length_cons, List.length_nil] at hf
  obtain ⟨fuel, rfl⟩ : ∃ k, fuel = k + 1 := ⟨fuel - 1, by omega⟩
  rw [List.append_assoc]
  have hb' : ∀ f ∈ sortFields fields, Readable f.2 := fun f hf => hb f (hperm.mem_iff.1 hf)
  have h' : ∀ f ∈ sortFields fields, ReadsBack f.2 := fun f hf => h f (hperm.mem_iff.1 hf)
  generalize sortFields fields = sorted at hf hkeys hb' h' ⊢
  cases sorted with
  | nil => rfl
  | cons f sorted =>
    have hbegins : Begins (separated ((f :: sorted).map fieldChars)) := begins_separated (begins_quote _) _
    have hread := readFields_written hb' h' rest (show _ < fuel by omega)
    show readValue (fuel + 1) ('\x7b' :: (separated ((f :: sorted).map fieldChars) ++ '\x7d' :: rest)) = _
    have hskip := (hbegins.append ('\x7d' :: rest)).skipSpace
    rw [readValue, hskip]
    split
    · rename_i he
      obtain ⟨c, cs, hcs, _, _, hc⟩ := hbegins
      rw [hcs] at he
      injection he with he _
      exact absurd he hc
    · rw [hread]
      show Except.ok (Data.record (Keyed.ofList _).toList, rest) = _
      rw [Keyed.toList_ofList hkeys]

theorem readsBack {j : Json} (hj : Readable j) : ReadsBack j := by
  have hscalar : ∀ {j : Json}, (∀ rest, Closed rest →
      readScalar (writeValue j ++ rest) = .ok (normal j, rest)) → ReadsBack j := by
    intro j h fuel rest hf hr
    -- something is written, so there is fuel for one step
    obtain ⟨c, cs, hcs, _⟩ := (readScalar_begins (h [] .nil)).1
    rw [List.append_nil] at hcs
    rw [hcs, List.length_cons] at hf
    obtain ⟨fuel, rfl⟩ : ∃ k, fuel = k + 1 := ⟨fuel - 1, by omega⟩
    exact readValue_scalar (h rest hr) fuel
  induction hj with
  | null => exact hscalar fun _ _ => rfl
  | bool b => exact hscalar fun _ _ => by cases b <;> rfl
  | int n hn => exact hscalar fun _ hr => readScalar_int (of_decide_eq_true hn) hr
  | float x hx => exact hscalar fun _ hr => readScalar_double hx hr
  | text t =>
    intro fuel rest hf _
    obtain ⟨fuel, rfl⟩ : ∃ k, fuel = k + 1 := ⟨fuel - 1, by simp [writeValue, stringChars] at hf; omega⟩
    show readValue (fuel + 1) ('"' :: (t.units.flatMap escapeUnit ++ ['"'] ++ rest)) = _
    rw [List.append_assoc, readValue]
    show (readString (t.units.flatMap escapeUnit ++ '"' :: rest)).map _ = _
    rw [readString_escaped]
    rfl
  | list items hitems ih => exact readsBack_list hitems ih
  | record fields hnodup hfields ih => exact readsBack_record hnodup hfields ih

/-- **What is written is read back**, with the fields of records in order. -/
theorem read_write {j : Json} (hj : Readable j) : read (write j) = .ok (normal j) := by
  have hvalue := readsBack hj (2 * (writeValue j).length + 2) [] (by omega) .nil
  rw [List.append_nil] at hvalue
  unfold read write readChars
  rw [String.toList_ofList, (begins_writeValue hj).skipSpace, hvalue]
  rfl

/-- A record whose fields are in order, and in which everything else is, is read back as it is. -/
theorem read_write_of_sorted {fields : List (Text × Json)} (hd : (fields.map Prod.fst).Nodup)
    (hsorted : fields.Pairwise fun f g => decide (f.1 ≤ g.1) = true)
    (h : ∀ f ∈ fields, Readable f.2 ∧ normal f.2 = f.2) :
    read (write (.record fields)) = .ok (.record fields) := by
  rw [read_write (.record fields hd fun f hf => (h f hf).1),
    normal_record_of_sorted hsorted fun f hf => (h f hf).2]

/-! ## The order of fields -/

/-- Documents that are the same but for the order of the fields of their records. -/
inductive Alike : Json → Json → Prop
  | same (j : Json) : Alike j j
  | list {items items' : List Json} : items.length = items'.length →
      (∀ (n : Nat) (x x' : Json), items[n]? = some x → items'[n]? = some x' → Alike x x') →
      Alike (.list items) (.list items')
  | record {fields fields' : List (Text × Json)} :
      (fields.map Prod.fst).Perm (fields'.map Prod.fst) →
      (∀ k x x', (k, x) ∈ fields → (k, x') ∈ fields' → Alike x x') →
      Alike (.record fields) (.record fields')

theorem Alike.symm {j j' : Json} (h : Alike j j') : Alike j' j := by
  induction h with
  | same j => exact .same j
  | list hlength _ ih => exact .list hlength.symm fun n x x' hx hx' => ih n x' x hx' hx
  | record hperm _ ih => exact .record hperm.symm fun k x x' hx hx' => ih k x' x hx' hx

theorem Alike.trans {j j' j'' : Json} (h : Alike j j') (h' : Alike j' j'') : Alike j j'' := by
  induction h generalizing j'' with
  | same j => exact h'
  | @list items items' hlength hitems ih =>
    cases h' with
    | same => exact .list hlength hitems
    | list hlength' hitems' =>
      refine .list (hlength.trans hlength') fun n x x'' hx hx'' => ?_
      obtain ⟨hn, _⟩ := List.getElem?_eq_some_iff.1 hx
      have hx' := List.getElem?_eq_getElem (hlength ▸ hn)
      exact ih n x _ hx hx' (hitems' n _ x'' hx' hx'')
  | @record fields fields' hperm hfields ih =>
    cases h' with
    | same => exact .record hperm hfields
    | record hperm' hfields' =>
      refine .record (hperm.trans hperm') fun k x x'' hx hx'' => ?_
      -- a name that both ends have is in the middle too
      have hk : k ∈ fields'.map Prod.fst := hperm.mem_iff.1 (List.mem_map_of_mem hx)
      obtain ⟨⟨_, x'⟩, hx', rfl⟩ := List.mem_map.1 hk
      exact ih _ x x' hx hx' (hfields' _ x' x'' hx' hx'')

/-- A document is read back as one that is alike. -/
theorem Readable.alike_normal {j : Json} (hj : Readable j) : Alike j (normal j) := by
  induction hj with
  | null => exact .same _
  | bool b => exact .same _
  | int n _ => exact .same _
  | float x _ => exact .same _
  | text t => exact .same _
  | list items _ ih =>
    rw [normal, normalItems_eq]
    refine .list (List.length_map _).symm fun n x x' hx hx' => ?_
    rw [List.getElem?_map, hx] at hx'
    cases hx'
    exact ih x (List.mem_of_getElem? hx)
  | record fields hnodup _ ih =>
    have hperm := sortFields_perm fields
    rw [normal_record]
    refine .record ?_ fun k x x' hx hx' => ?_
    · rw [List.map_map]
      exact (hperm.map Prod.fst).symm
    · obtain ⟨f, hf, he⟩ := List.mem_map.1 hx'
      cases he
      -- the names of the fields are distinct, so one name has one value
      have hmem : (f.1, f.2) ∈ fields := hperm.mem_iff.1 hf
      have hsome : some x = some f.2 := by
        rw [← (Keyed.find_eq_some_iff hnodup).2 hx, ← (Keyed.find_eq_some_iff hnodup).2 hmem]
      cases hsome
      exact ih _ hx

/-! ## What can be read -/

theorem Readable.of_words {w : List Char × Json} (h : w ∈ words) : Readable w.2 := by
  simp only [words, List.mem_cons, List.not_mem_nil, or_false] at h
  rcases h with rfl | rfl | rfl | rfl | rfl | rfl
  · exact .null
  · exact .bool _
  · exact .bool _
  · exact .float _ fun _ => rfl
  · exact .float _ fun h => absurd h (by decide)
  · exact .float _ fun h => absurd h (by decide)

theorem isNaN_ofCode (negative : Bool) (code : Nat) : (Double.ofCode negative code).isNaN = false := by
  exact decide_eq_false (Nat.not_lt.2 (Nat.min_le_right code Double.infinityCode))

theorem isNaN_ofDecimal (negative : Bool) (m : Nat) (e : Int) :
    (Double.ofDecimal negative m e).isNaN = false := by
  unfold Double.ofDecimal
  dsimp only
  split
  · rfl
  split
  · exact isNaN_ofCode ..
  split
  · exact isNaN_ofCode ..
  · exact isNaN_ofCode ..

theorem isDigit_of_readWhole {cs whole rest : List Char} (h : readWhole cs = (whole, rest)) :
    ∀ c ∈ whole, Text.Decimal.isDigit c = true := by
  unfold readWhole at h
  split at h
  · cases h
    simp [Text.Decimal.isDigit]
  · cases h
    exact List.all_eq_true.1 List.all_takeWhile

theorem Readable.of_readNumber {negative : Bool} {cs rest : List Char} {j : Json}
    (h : readNumber negative cs = .ok (j, rest)) : Readable j := by
  unfold readNumber at h
  cases hw : readWhole cs with
  | mk whole r =>
    rw [hw] at h
    dsimp only at h
    split at h
    · cases h
    rename_i hne
    split at h
    · split at h
      · cases h
      rename_i hlen
      cases h
      exact .int _ (Text.Decimal.isShort_signed negative (isDigit_of_readWhole hw)
        (Nat.not_lt.1 hlen))
    · cases h
      exact .float _ fun hn => absurd hn (by simp [isNaN_ofDecimal])

theorem Readable.of_readScalar {cs rest : List Char} {j : Json} (h : readScalar cs = .ok (j, rest)) :
    Readable j := by
  unfold readScalar at h
  split at h
  · rename_i w x hfind
    cases h
    exact .of_words (List.mem_of_find?_eq_some hfind)
  · split at h
    · exact .of_readNumber h
    · exact .of_readNumber h

/-- What a reader gives back, and what is left. -/
theorem map_eq_ok {ε α β : Type} {f : α → β} {x : Except ε α} {b : β} (h : x.map f = .ok b) :
    ∃ a, x = .ok a ∧ f a = b := by
  cases x with
  | error e => cases h
  | ok a => exact ⟨a, rfl, Except.ok.inj h⟩

/-- What the three readers of documents give is readable, with this fuel. -/
structure GivesReadable (fuel : Nat) : Prop where
  value : ∀ {cs j rest}, readValue fuel cs = .ok (j, rest) → Readable j
  items : ∀ {cs xs rest}, readItems fuel cs = .ok (xs, rest) → ∀ x ∈ xs, Readable x
  fields : ∀ {cs fs rest}, readFields fuel cs = .ok (fs, rest) → ∀ f ∈ fs, Readable f.2

variable {fuel : Nat}

theorem GivesReadable.readValue_succ (ih : GivesReadable fuel) {cs : List Char} {j : Json}
    {rest : List Char} (h : readValue (fuel + 1) cs = .ok (j, rest)) : Readable j := by
  unfold readValue at h
  split at h
  · obtain ⟨⟨t, r⟩, _, h⟩ := map_eq_ok h
    cases h
    exact .text _
  · split at h
    · cases h
      exact .list _ fun x hx => absurd hx List.not_mem_nil
    · obtain ⟨⟨xs, r⟩, hxs, h⟩ := map_eq_ok h
      cases h
      exact .list _ (ih.items hxs)
  · split at h
    · cases h
      exact .record _ List.nodup_nil fun f hf => absurd hf List.not_mem_nil
    · -- a name that is met again replaces the field, so no name is there twice
      obtain ⟨⟨fs, r⟩, hfs, h⟩ := map_eq_ok h
      cases h
      exact .record _ (Keyed.ofList fs).nodup fun f hf => ih.fields hfs f (Keyed.mem_ofList hf)
  · exact .of_readScalar h

theorem GivesReadable.readItems_succ (ih : GivesReadable fuel) {cs : List Char} {xs : List Json}
    {rest : List Char} (h : readItems (fuel + 1) cs = .ok (xs, rest)) : ∀ x ∈ xs, Readable x := by
  rw [readItems] at h
  obtain ⟨⟨x, r⟩, hx, h⟩ := Fallible.bind_eq_ok h
  have hxr := ih.value hx
  dsimp only at h
  split at h
  · cases h
    exact fun y hy => List.mem_singleton.1 hy ▸ hxr
  · obtain ⟨⟨xs, r'⟩, hxs, h⟩ := map_eq_ok h
    cases h
    intro y hy
    rcases List.mem_cons.1 hy with rfl | hy
    · exact hxr
    · exact ih.items hxs y hy
  · cases h

theorem GivesReadable.readFields_succ (ih : GivesReadable fuel) {cs : List Char}
    {fs : List (Text × Json)} {rest : List Char}
    (h : readFields (fuel + 1) cs = .ok (fs, rest)) : ∀ f ∈ fs, Readable f.2 := by
  unfold readFields at h
  split at h
  · obtain ⟨⟨name, r⟩, _, h⟩ := Fallible.bind_eq_ok h
    dsimp only at h
    split at h
    · obtain ⟨⟨x, r'⟩, hx, h⟩ := Fallible.bind_eq_ok h
      have hxr := ih.value hx
      dsimp only at h
      split at h
      · cases h
        exact fun f hf => List.mem_singleton.1 hf ▸ hxr
      · obtain ⟨⟨fs, r''⟩, hfs, h⟩ := map_eq_ok h
        cases h
        intro f hf
        rcases List.mem_cons.1 hf with rfl | hf
        · exact hxr
        · exact ih.fields hfs f hf
      · cases h
    · cases h
  · cases h

theorem givesReadable (fuel : Nat) : GivesReadable fuel := by
  induction fuel with
  | zero => constructor <;> · intro _ _ _ h; cases h
  | succ fuel ih => exact ⟨ih.readValue_succ, ih.readItems_succ, ih.readFields_succ⟩

/-- **Every document that is read can be written and read again.** -/
theorem Readable.of_read {s : String} {j : Json} (h : read s = .ok j) : Readable j := by
  unfold read readChars at h
  obtain ⟨⟨x, rest⟩, hx, h⟩ := Fallible.bind_eq_ok h
  dsimp only at h
  split at h
  · cases h
    exact (givesReadable _).value hx
  · cases h

end Changefeed.Json
