import Mathlib.Data.Fintype.EquivFin
import Mathlib.Data.List.Permutation
import DeltaLLM.CheckedResults

/-! # Rows put into the places that they name

A reader takes from a row the place it is for and what goes there. As many rows as places fill all
places only one to one, so the order of the rows does not matter.
-/
namespace RowPlacement

open CheckedResults

variable {Row Fields Entry Fault : Type}

/-- How a row is read; a row number is the row's position in the response. -/
structure RowReader (Row Fields Entry Fault : Type) where
  fieldsOf : (rowNumber : ℕ) → Row → Except Fault Fields
  indexOf : (rowNumber : ℕ) → Fields → Except Fault ℤ
  content : (rowNumber : ℕ) → (index : ℤ) → Fields → Except Fault Entry
  outOfRange : (rowNumber : ℕ) → (index : ℤ) → Fault
  duplicate : (index : ℤ) → Fault
  missing : Fault

namespace RowReader

variable (reader : RowReader Row Fields Entry Fault)

/-- One row goes to the free place that it names. -/
def place (count rowNumber : ℕ) (slots : List (Option Entry)) (row : Row) :
    Except Fault (List (Option Entry)) := do
  let fields ← reader.fieldsOf rowNumber row
  let index ← reader.indexOf rowNumber fields
  if index < 0 ∨ (count : ℤ) ≤ index then .error (reader.outOfRange rowNumber index)
  else if (slots.getD index.toNat none).isSome then .error (reader.duplicate index)
  else do
    let entry ← reader.content rowNumber index fields
    return slots.set index.toNat (some entry)

def placeAll (count : ℕ) : ℕ → List Row → List (Option Entry) →
    Except Fault (List (Option Entry))
  | _, [], slots => .ok slots
  | rowNumber, row :: rows, slots => do
      let slots ← reader.place count rowNumber slots row
      placeAll count (rowNumber + 1) rows slots

def takeAll (slots : List (Option Entry)) : Except Fault (List Entry) :=
  if slots.any Option.isNone then .error reader.missing else .ok (slots.filterMap id)

/-- The entries in the order of their places. -/
def demultiplex (count : ℕ) (rows : List Row) : Except Fault (List Entry) := do
  let slots ← reader.placeAll count 0 rows (List.replicate count none)
  reader.takeAll slots

/-- The row at this position goes to this place with this entry. -/
def Reads (rowNumber : ℕ) (row : Row) (place : ℕ) (entry : Entry) : Prop :=
  ∃ fields, reader.fieldsOf rowNumber row = .ok fields ∧
    reader.indexOf rowNumber fields = .ok (place : ℤ) ∧
      reader.content rowNumber place fields = .ok entry

/-- Every place is filled from a row that names it. -/
structure Fills (count : ℕ) (rows : List Row) (entries : List Entry) : Prop where
  rows_length : rows.length = count
  entries_length : entries.length = count
  filled : ∀ place, place < count → ∃ rowNumber row entry, rows[rowNumber]? = some row ∧
    reader.Reads rowNumber row place entry ∧ entries[place]? = some entry

/-- The filled places are those that the rows read so far name. -/
structure PlacedUpTo (count : ℕ) (rows : List Row) (slots : List (Option Entry)) : Prop where
  length : slots.length = count
  slot : ∀ place entry, slots[place]? = some (some entry) ↔
    place < count ∧ ∃ rowNumber row, rows[rowNumber]? = some row ∧
      reader.Reads rowNumber row place entry

variable {reader} {count rowNumber : ℕ} {rows rows' : List Row} {row : Row}
  {slots slots' : List (Option Entry)} {entries : List Entry}

theorem Reads.unique {place place' : ℕ} {entry entry' : Entry}
    (h : reader.Reads rowNumber row place entry) (h' : reader.Reads rowNumber row place' entry') :
    place = place' ∧ entry = entry' := by
  obtain ⟨fields, hfields, hindex, hcontent⟩ := h
  obtain ⟨fields', hfields', hindex', hcontent'⟩ := h'
  obtain rfl : fields = fields' := Except.ok.inj (hfields.symm.trans hfields')
  have hplace : (place : ℤ) = place' := Except.ok.inj (hindex.symm.trans hindex')
  obtain rfl : place = place' := by omega
  exact ⟨rfl, Except.ok.inj (hcontent.symm.trans hcontent')⟩

theorem isSome_getD {place : ℕ} :
    (slots.getD place none).isSome = true ↔ ∃ entry, slots[place]? = some (some entry) := by
  rw [List.getD_eq_getElem?_getD]
  cases slots[place]? with
  | none => simp
  | some slot => simp [Option.isSome_iff_exists]

theorem place_ok_iff :
    reader.place count rowNumber slots row = .ok slots' ↔
      ∃ place entry, place < count ∧ reader.Reads rowNumber row place entry ∧
        (∀ held, slots[place]? ≠ some (some held)) ∧ slots' = slots.set place (some entry) := by
  unfold place
  rw [bind_ok_iff]
  constructor
  · rintro ⟨fields, hfields, h⟩
    obtain ⟨index, hindex, h⟩ := bind_ok_iff.mp h
    split_ifs at h with hrange hfree
    obtain ⟨entry, hcontent, h⟩ := bind_ok_iff.mp h
    cases h
    have hplace : index = (index.toNat : ℤ) := by omega
    refine ⟨index.toNat, entry, by omega,
      ⟨fields, hfields, hindex.trans (congrArg _ hplace), ?_⟩, ?_, rfl⟩
    · rw [← hplace]
      exact hcontent
    · intro held hheld
      exact hfree (isSome_getD.mpr ⟨held, hheld⟩)
  · rintro ⟨place, entry, hbound, ⟨fields, hfields, hindex, hcontent⟩, hfree, rfl⟩
    refine ⟨fields, hfields, bind_ok_iff.mpr ⟨place, hindex, ?_⟩⟩
    rw [if_neg (by omega), if_neg, hcontent]
    · rfl
    · rintro hsome
      obtain ⟨held, hheld⟩ := isSome_getD.mp hsome
      exact hfree held hheld

theorem placedUpTo_nil : reader.PlacedUpTo count [] (List.replicate count none) := by
  refine ⟨List.length_replicate, fun place entry => ?_⟩
  simp [List.getElem?_replicate]

private theorem getElem?_snoc {position : ℕ} {row' : Row} :
    (rows ++ [row])[position]? = some row' ↔
      rows[position]? = some row' ∨ (position = rows.length ∧ row = row') := by
  rcases Nat.lt_trichotomy position rows.length with hlt | rfl | hgt
  · rw [List.getElem?_append_left hlt]
    simp [hlt.ne]
  · simp
  · have hnone : rows[position]? = none := List.getElem?_eq_none hgt.le
    have hnone' : (rows ++ [row])[position]? = none :=
      List.getElem?_eq_none (by simp only [List.length_append, List.length_singleton]; omega)
    simp [hnone, hnone', hgt.ne']

theorem PlacedUpTo.step (h : reader.PlacedUpTo count rows slots)
    (hplace : reader.place count rows.length slots row = .ok slots') :
    reader.PlacedUpTo count (rows ++ [row]) slots' := by
  obtain ⟨place, entry, hbound, hreads, hfree, rfl⟩ := place_ok_iff.mp hplace
  refine ⟨List.length_set.trans h.length, fun other held => ?_⟩
  by_cases hother : place = other
  · subst hother
    rw [List.getElem?_set_self (by rw [h.length]; exact hbound)]
    constructor
    · intro hheld
      cases hheld
      exact ⟨hbound, rows.length, row, getElem?_snoc.mpr (Or.inr ⟨rfl, rfl⟩), hreads⟩
    · rintro ⟨-, position, row', hrow', hreads'⟩
      rcases getElem?_snoc.mp hrow' with hrow' | ⟨rfl, rfl⟩
      · exact absurd ((h.slot place held).mpr ⟨hbound, position, row', hrow', hreads'⟩)
          (hfree held)
      · rw [(hreads.unique hreads').2]
  · rw [List.getElem?_set_ne hother, h.slot]
    constructor
    · rintro ⟨hlt, position, row', hrow', hreads'⟩
      exact ⟨hlt, position, row', getElem?_snoc.mpr (Or.inl hrow'), hreads'⟩
    · rintro ⟨hlt, position, row', hrow', hreads'⟩
      rcases getElem?_snoc.mp hrow' with hrow' | ⟨rfl, rfl⟩
      · exact ⟨hlt, position, row', hrow', hreads'⟩
      · exact absurd (hreads.unique hreads').1 hother

theorem PlacedUpTo.run (h : reader.PlacedUpTo count rows slots)
    (hplace : reader.placeAll count rows.length rows' slots = .ok slots') :
    reader.PlacedUpTo count (rows ++ rows') slots' := by
  induction rows' generalizing rows slots with
  | nil =>
      cases hplace
      rwa [List.append_nil]
  | cons row rows' ih =>
      obtain ⟨middle, hrow, hrows⟩ := bind_ok_iff.mp hplace
      have hstep : reader.PlacedUpTo count ((rows ++ [row]) ++ rows') slots' :=
        ih (h.step hrow) (by simpa using hrows)
      rwa [List.append_assoc, List.singleton_append] at hstep

theorem takeAll_ok_iff : reader.takeAll slots = .ok entries ↔ slots = entries.map some := by
  unfold takeAll
  constructor
  · intro h
    split_ifs at h with hnone
    cases h
    induction slots with
    | nil => rfl
    | cons slot slots ih =>
        cases slot with
        | none => simp at hnone
        | some entry => simpa using ih (by simpa using hnone)
  · rintro rfl
    rw [if_neg (by simp)]
    simp [List.filterMap_map]

/-- As many rows as places: each row fills a place, and no place has two rows. -/
theorem Fills.one_to_one (h : reader.Fills count rows entries) :
    (∀ rowNumber row, rows[rowNumber]? = some row →
      ∃ place entry, place < count ∧ reader.Reads rowNumber row place entry) ∧
    ∀ rowNumber rowNumber' row row' place entry entry', rows[rowNumber]? = some row →
      rows[rowNumber']? = some row' → reader.Reads rowNumber row place entry →
        reader.Reads rowNumber' row' place entry' → place < count → rowNumber = rowNumber' := by
  have hchoice : ∀ place : Fin count, ∃ rowNumber : Fin count, ∃ row entry,
      rows[rowNumber.val]? = some row ∧ reader.Reads rowNumber row place entry := by
    intro place
    obtain ⟨rowNumber, row, entry, hrow, hreads, -⟩ := h.filled place place.isLt
    have hlt : rowNumber < count := h.rows_length ▸ (List.getElem?_eq_some_iff.mp hrow).1
    exact ⟨⟨rowNumber, hlt⟩, row, entry, hrow, hreads⟩
  choose rowOf hrowOf using hchoice
  have hinjective : Function.Injective rowOf := by
    intro place place' heq
    obtain ⟨row, entry, hrow, hreads⟩ := hrowOf place
    obtain ⟨row', entry', hrow', hreads'⟩ := hrowOf place'
    rw [heq, hrow'] at hrow
    cases hrow
    rw [heq] at hreads
    exact Fin.ext (hreads.unique hreads').1
  have hsurjective := Finite.surjective_of_injective hinjective
  -- The row that the choice gives a place is the only one that names it.
  have honly : ∀ rowNumber row place entry, rows[rowNumber]? = some row →
      reader.Reads rowNumber row place entry → ∀ hplace : place < count,
        (rowOf ⟨place, hplace⟩).val = rowNumber := by
    intro rowNumber row place entry hrow hreads hplace
    have hlt : rowNumber < count := h.rows_length ▸ (List.getElem?_eq_some_iff.mp hrow).1
    obtain ⟨other, hother⟩ := hsurjective ⟨rowNumber, hlt⟩
    obtain ⟨row', entry', hrow', hreads'⟩ := hrowOf other
    rw [hother] at hrow' hreads'
    cases hrow.symm.trans hrow'
    have hsame : (⟨place, hplace⟩ : Fin count) = other :=
      Fin.ext (hreads.unique hreads').1
    rw [hsame, hother]
  refine ⟨fun rowNumber row hrow => ?_, ?_⟩
  · have hlt : rowNumber < count := h.rows_length ▸ (List.getElem?_eq_some_iff.mp hrow).1
    obtain ⟨place, hplace⟩ := hsurjective ⟨rowNumber, hlt⟩
    obtain ⟨row', entry, hrow', hreads⟩ := hrowOf place
    rw [hplace] at hrow' hreads
    cases hrow.symm.trans hrow'
    exact ⟨place, entry, place.isLt, hreads⟩
  · intro rowNumber rowNumber' row row' place entry entry' hrow hrow' hreads hreads' hplace
    rw [← honly _ _ _ _ hrow hreads hplace, honly _ _ _ _ hrow' hreads' hplace]

theorem Fills.placeAll_ok (h : reader.Fills count (rows ++ rows') entries)
    (hplaced : reader.PlacedUpTo count rows slots) :
    ∃ slots', reader.placeAll count rows.length rows' slots = .ok slots' := by
  induction rows' generalizing rows slots with
  | nil => exact ⟨slots, rfl⟩
  | cons row rows' ih =>
      have hrow : (rows ++ row :: rows')[rows.length]? = some row := by simp
      obtain ⟨place, entry, hbound, hreads⟩ := h.one_to_one.1 _ _ hrow
      have hfree : ∀ held, slots[place]? ≠ some (some held) := by
        intro held hheld
        obtain ⟨-, position, row', hrow', hreads'⟩ := (hplaced.slot place held).mp hheld
        have hlt := (List.getElem?_eq_some_iff.mp hrow').1
        have heq := h.one_to_one.2 _ _ _ _ _ _ _ (by rwa [List.getElem?_append_left hlt]) hrow
          hreads' hreads hbound
        omega
      have hplace := place_ok_iff.mpr ⟨place, entry, hbound, hreads, hfree, rfl⟩
      rw [← List.singleton_append, ← List.append_assoc] at h
      obtain ⟨slots', hrest⟩ := ih h (hplaced.step hplace)
      exact ⟨slots', bind_ok_iff.mpr ⟨_, hplace, by simpa using hrest⟩⟩

/-- When as many rows as places are accepted, and what comes out. -/
theorem demultiplex_ok_iff (hlength : rows.length = count) :
    reader.demultiplex count rows = .ok entries ↔ reader.Fills count rows entries := by
  constructor
  · intro h
    obtain ⟨slots, hslots, h⟩ := bind_ok_iff.mp h
    have hplaced : reader.PlacedUpTo count rows slots := by
      simpa using placedUpTo_nil.run hslots
    obtain rfl := takeAll_ok_iff.mp h
    have hentries : entries.length = count := by simpa using hplaced.length
    refine ⟨hlength, hentries, fun place hplace => ?_⟩
    obtain ⟨entry, hentry⟩ : ∃ entry, entries[place]? = some entry :=
      ⟨_, List.getElem?_eq_getElem (hentries ▸ hplace)⟩
    obtain ⟨-, rowNumber, row, hrow, hreads⟩ := (hplaced.slot place _).mp
      (by rw [List.getElem?_map, hentry]; rfl)
    exact ⟨rowNumber, row, _, hrow, hreads, hentry⟩
  · intro h
    have hwhole : reader.Fills count ([] ++ rows) entries := h
    obtain ⟨slots, hslots⟩ := hwhole.placeAll_ok placedUpTo_nil
    have hplaced : reader.PlacedUpTo count rows slots := by
      simpa using placedUpTo_nil.run hslots
    refine bind_ok_iff.mpr ⟨slots, hslots, takeAll_ok_iff.mpr (List.ext_getElem? fun place => ?_)⟩
    by_cases hplace : place < count
    · obtain ⟨rowNumber, row, entry, hrow, hreads, hentry⟩ := h.filled place hplace
      rw [List.getElem?_map, hentry]
      exact (hplaced.slot place entry).mpr ⟨hplace, rowNumber, row, hrow, hreads⟩
    · rw [List.getElem?_eq_none (by rw [hplaced.length]; omega),
        List.getElem?_eq_none (by rw [List.length_map, h.entries_length]; omega)]

section Order

variable (reader) {Kept : Type} (forget : Entry → Kept)

/-- A row's number goes into texts only, which `forget` drops. -/
structure RowNumberFree : Prop where
  fieldsOf : ∀ rowNumber rowNumber' row fields,
    reader.fieldsOf rowNumber row = .ok fields → reader.fieldsOf rowNumber' row = .ok fields
  indexOf : ∀ rowNumber rowNumber' fields index,
    reader.indexOf rowNumber fields = .ok index → reader.indexOf rowNumber' fields = .ok index
  content : ∀ rowNumber rowNumber' fields index entry,
    reader.content rowNumber index fields = .ok entry →
      ∃ entry', reader.content rowNumber' index fields = .ok entry' ∧
        forget entry' = forget entry

variable {reader forget}

theorem demultiplex_perm (hfree : reader.RowNumberFree forget) (hperm : rows.Perm rows')
    (hlength : rows.length = count) (h : reader.demultiplex count rows = .ok entries) :
    ∃ entries', reader.demultiplex count rows' = .ok entries' ∧
      entries'.map forget = entries.map forget := by
  have hfills := (demultiplex_ok_iff hlength).mp h
  have hchoice : ∀ place : Fin count, ∃ entry rowNumber row, rows'[rowNumber]? = some row ∧
      reader.Reads rowNumber row place entry ∧
        (entries[place.val]?).map forget = some (forget entry) := by
    intro place
    obtain ⟨rowNumber, row, entry, hrow, hreads, hentry⟩ := hfills.filled place place.isLt
    obtain ⟨rowNumber', hrow'⟩ :=
      List.mem_iff_getElem?.mp (hperm.mem_iff.mp (List.mem_of_getElem? hrow))
    obtain ⟨fields, hfields, hindex, hcontent⟩ := hreads
    obtain ⟨entry', hcontent', hforget⟩ := hfree.content _ rowNumber' _ _ _ hcontent
    refine ⟨entry', rowNumber', row, hrow', ⟨fields, hfree.fieldsOf _ _ _ _ hfields,
      hfree.indexOf _ _ _ _ hindex, hcontent'⟩, ?_⟩
    rw [hentry, Option.map_some, hforget]
  choose entryOf hentryOf using hchoice
  have hlength' : rows'.length = count := hperm.length_eq.symm.trans hlength
  refine ⟨List.ofFn entryOf, (demultiplex_ok_iff hlength').mpr
    ⟨hlength', List.length_ofFn, fun place hplace => ?_⟩, List.ext_getElem? fun place => ?_⟩
  · obtain ⟨rowNumber, row, hrow, hreads, -⟩ := hentryOf ⟨place, hplace⟩
    exact ⟨rowNumber, row, entryOf ⟨place, hplace⟩, hrow, hreads, by simp [hplace]⟩
  · by_cases hplace : place < count
    · obtain ⟨-, -, -, -, hforget⟩ := hentryOf ⟨place, hplace⟩
      simp only [List.getElem?_map] at hforget ⊢
      rw [hforget]
      simp [hplace]
    · rw [List.getElem?_eq_none (by simpa using hplace),
        List.getElem?_eq_none (by simpa [hfills.entries_length] using hplace)]

end Order

end RowReader

section Demultiplexers

variable {Response Kept : Type} (respond : Response → Except Fault (List Entry))
  (rowsOf : Response → Option (List Row)) (identified : Row → ℕ → Prop)
  (comesFrom : (rowNumber place : ℕ) → Row → Entry → Prop) (forget : Entry → Kept) (count : ℕ)

/-- Each place has one row that is identified with it, and its result comes from that row. -/
structure Demultiplexed (rows : List Row) (results : List Entry) : Prop where
  rows_length : rows.length = count
  results_length : results.length = count
  result : ∀ place, place < count → ∃ rowNumber row result, rows[rowNumber]? = some row ∧
    identified row place ∧
      (∀ other row', rows[other]? = some row' → identified row' place → other = rowNumber) ∧
        results[place]? = some result ∧ comesFrom rowNumber place row result

/-- Two rows at different positions are identified with one place. -/
def SharedPlace (rows : List Row) : Prop :=
  ∃ (rowNumber rowNumber' : ℕ) (row row' : Row) (place : ℕ), rows[rowNumber]? = some row ∧
    rows[rowNumber']? = some row' ∧ rowNumber ≠ rowNumber' ∧ identified row place ∧
      identified row' place

/-- A response is taken apart place by place or refused, in whatever order its rows come. -/
structure Demultiplexer : Prop where
  accepted : ∀ response results, respond response = .ok results →
    ∃ rows, rowsOf response = some rows ∧ Demultiplexed identified comesFrom count rows results
  permuted : ∀ response response' rows rows', rowsOf response = some rows →
    rowsOf response' = some rows' → rows.Perm rows' → ∀ results, respond response = .ok results →
      ∃ results', respond response' = .ok results' ∧ results'.map forget = results.map forget
  rejected : ∀ response, (∀ rows, rowsOf response = some rows →
      rows.length ≠ count ∨ (∃ row ∈ rows, ∀ place, place < count → ¬ identified row place) ∨
        SharedPlace identified rows) → ∃ fault, respond response = .error fault

variable {respond rowsOf identified comesFrom forget count}
  {reader : RowReader Row Fields Entry Fault}

theorem RowReader.RowNumberFree.demultiplexer (hfree : reader.RowNumberFree forget)
    (hidentified : ∀ rowNumber row (place : ℕ), identified row place ↔
      ∃ fields, reader.fieldsOf rowNumber row = .ok fields ∧
        reader.indexOf rowNumber fields = .ok (place : ℤ))
    (hcomes : ∀ rowNumber place row entry,
      reader.Reads rowNumber row place entry → comesFrom rowNumber place row entry)
    (hrespond : ∀ response rows, rowsOf response = some rows → rows.length = count →
      respond response = reader.demultiplex count rows)
    (hrefuse : ∀ response, (∀ rows, rowsOf response = some rows → rows.length ≠ count) →
      ∃ fault, respond response = .error fault) :
    Demultiplexer respond rowsOf identified comesFrom forget count := by
  have hrows : ∀ response results, respond response = .ok results →
      ∃ rows, rowsOf response = some rows ∧ reader.Fills count rows results := by
    intro response results h
    by_cases hlength : ∃ rows, rowsOf response = some rows ∧ rows.length = count
    · obtain ⟨rows, hrows, hlength⟩ := hlength
      rw [hrespond _ _ hrows hlength] at h
      exact ⟨rows, hrows, (RowReader.demultiplex_ok_iff hlength).mp h⟩
    · obtain ⟨fault, hfault⟩ := hrefuse response fun rows hrows hlength' =>
        hlength ⟨rows, hrows, hlength'⟩
      rw [hfault] at h
      cases h
  have hplaceOf : ∀ rowNumber row place place' entry, reader.Reads rowNumber row place entry →
      identified row place' → place = place' := by
    rintro rowNumber row place place' entry ⟨fields, hfields, hindex, -⟩ hrow
    obtain ⟨fields', hfields', hindex'⟩ := (hidentified rowNumber row place').mp hrow
    cases hfields.symm.trans hfields'
    have hcast := Except.ok.inj (hindex.symm.trans hindex')
    omega
  have honly : ∀ rows results, reader.Fills count rows results →
      ∀ (rowNumber rowNumber' : ℕ) (row row' : Row) (place : ℕ), rows[rowNumber]? = some row →
        rows[rowNumber']? = some row' → identified row place → identified row' place →
          rowNumber = rowNumber' := by
    intro rows results hfills rowNumber rowNumber' row row' place hrow hrow' hname hname'
    obtain ⟨p, entry, hp, hreads⟩ := hfills.one_to_one.1 _ _ hrow
    obtain ⟨p', entry', -, hreads'⟩ := hfills.one_to_one.1 _ _ hrow'
    obtain rfl := hplaceOf _ _ _ _ _ hreads hname
    obtain rfl := hplaceOf _ _ _ _ _ hreads' hname'
    exact hfills.one_to_one.2 _ _ _ _ _ _ _ hrow hrow' hreads hreads' hp
  refine ⟨fun response results h => ?_, ?_, fun response hbad => ?_⟩
  · obtain ⟨rows, hrows, hfills⟩ := hrows _ _ h
    refine ⟨rows, hrows, hfills.rows_length, hfills.entries_length, fun place hplace => ?_⟩
    obtain ⟨rowNumber, row, entry, hrow, hreads, hentry⟩ := hfills.filled place hplace
    obtain ⟨fields, hfields, hindex, hcontent⟩ := hreads
    have hname := (hidentified rowNumber row place).mpr ⟨fields, hfields, hindex⟩
    refine ⟨rowNumber, row, entry, hrow, hname, fun other row' hrow' hname' => ?_, hentry,
      hcomes _ _ _ _ ⟨fields, hfields, hindex, hcontent⟩⟩
    exact honly rows results hfills _ _ _ _ place hrow' hrow hname' hname
  · intro response response' rows rows' hresponse hresponse' hperm results h
    obtain ⟨_, hsame, hfills⟩ := hrows _ _ h
    cases hresponse.symm.trans hsame
    have hlength := hfills.rows_length
    rw [hrespond _ _ hresponse hlength] at h
    rw [hrespond _ _ hresponse' (hperm.length_eq.symm.trans hlength)]
    exact RowReader.demultiplex_perm hfree hperm hlength h
  · cases h : respond response with
    | error fault => exact ⟨fault, rfl⟩
    | ok results =>
        obtain ⟨rows, hrows, hfills⟩ := hrows _ _ h
        rcases hbad rows hrows with hlength | ⟨row, hmem, hnone⟩ |
          ⟨rowNumber, rowNumber', row, row', place, hrow, hrow', hne, hname, hname'⟩
        · exact absurd hfills.rows_length hlength
        · obtain ⟨rowNumber, hrow⟩ := List.mem_iff_getElem?.mp hmem
          obtain ⟨place, entry, hplace, fields, hfields, hindex, -⟩ :=
            hfills.one_to_one.1 _ _ hrow
          exact absurd ((hidentified rowNumber row place).mpr ⟨fields, hfields, hindex⟩)
            (hnone place hplace)
        · exact absurd (honly rows results hfills _ _ _ _ place hrow hrow' hname hname') hne

end Demultiplexers

end RowPlacement
