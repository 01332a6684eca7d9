import Mathlib.Data.List.Basic

/-! # Codes that can be read in only one way

A code is a list of symbols for a value. `ReadableAt` says of one value that its code, before any
allowed continuation, is neither the code of another value nor read with another continuation. The
rules below build such codes for pairs, sequences and separated lists.
-/
namespace UniqueReading

variable {α β γ : Type*}

/-- `D` holds of the values compared with and `P` of what may follow a code. -/
def ReadableAt (D : α → Prop) (P : List β → Prop) (code : α → List β) (a : α) : Prop :=
  ∀ b s t, D b → P s → P t → code a ++ s = code b ++ t → a = b ∧ s = t

def Anything (_ : List β) : Prop := True

variable {D : α → Prop} {P Q : List β → Prop} {code : α → List β} {a b : α}

/-- Readable codes that end the text are equal for equal values only. -/
theorem ReadableAt.eq (h : ReadableAt D P code a) (hnil : P []) (hb : D b)
    (heq : code a = code b) : a = b :=
  (h b [] [] hb hnil hnil (by rw [heq])).1

/-- A pair with a symbol between: the first part must be readable before anything. -/
theorem ReadableAt.pair {E : γ → Prop} {code' : γ → List β} {c : γ} (mid : β)
    (ha : ReadableAt D Anything code a) (hc : ReadableAt E P code' c) :
    ReadableAt (fun p : α × γ => D p.1 ∧ E p.2) P
      (fun p : α × γ => code p.1 ++ mid :: code' p.2) (a, c) := by
  rintro ⟨b, d⟩ s t ⟨hb, hd⟩ hs ht heq
  simp only [List.append_assoc, List.cons_append] at heq
  obtain ⟨rfl, hrest⟩ := ha b _ _ hb trivial trivial heq
  obtain ⟨rfl, rfl⟩ := hc d s t hd hs ht (List.cons.inj hrest).2
  exact ⟨rfl, rfl⟩

/-- Codes made of one class of symbols are told apart by what follows being of another class. -/
theorem append_eq_of_class {inClass : β → Bool} {l m s t : List β} (hl : ∀ x ∈ l, inClass x = true)
    (hm : ∀ x ∈ m, inClass x = true) (hs : ∀ x ∈ s.head?, inClass x = false)
    (ht : ∀ x ∈ t.head?, inClass x = false) (heq : l ++ s = m ++ t) : l = m ∧ s = t := by
  induction l generalizing m with
  | nil =>
      cases m with
      | nil => exact ⟨rfl, heq⟩
      | cons y m =>
          have hhead : y ∈ s.head? := by simp_all
          exact absurd (hs y hhead) (by simp [hm y List.mem_cons_self])
  | cons x l ih =>
      cases m with
      | nil =>
          have hhead : x ∈ t.head? := by
            rw [← show x :: (l ++ s) = t from heq]
            rfl
          exact absurd (ht x hhead) (by simp [hl x List.mem_cons_self])
      | cons y m =>
          obtain ⟨rfl, hrest⟩ := List.cons.inj heq
          obtain ⟨rfl, rfl⟩ := ih (fun z hz => hl z (List.mem_cons_of_mem _ hz))
            (fun z hz => hm z (List.mem_cons_of_mem _ hz)) hrest
          exact ⟨rfl, rfl⟩

/-! ## Sequences with an end mark -/

/-- The codes of a sequence and then a mark that no code starts with. -/
theorem readableAt_terminated {close : β} {xs : List α}
    (hstart : ∀ a, D a → ∃ x rest, code a = x :: rest ∧ x ≠ close)
    (hxs : ∀ x ∈ xs, D x ∧ ReadableAt D Anything code x) :
    ReadableAt (fun ys => ∀ y ∈ ys, D y) Anything (fun xs => xs.flatMap code ++ [close]) xs := by
  intro ys s t hys _ _ heq
  induction xs generalizing ys with
  | nil =>
      cases ys with
      | nil => exact ⟨rfl, (List.cons.inj heq).2⟩
      | cons y ys =>
          obtain ⟨z, rest, hcode, hne⟩ := hstart y (hys y List.mem_cons_self)
          simp only [List.flatMap_nil, List.flatMap_cons, hcode, List.cons_append,
            List.nil_append] at heq
          exact absurd (List.cons.inj heq).1.symm hne
  | cons x xs ih =>
      obtain ⟨hx, hreads⟩ := hxs x List.mem_cons_self
      cases ys with
      | nil =>
          obtain ⟨z, rest, hcode, hne⟩ := hstart x hx
          simp only [List.flatMap_nil, List.flatMap_cons, hcode, List.cons_append,
            List.nil_append] at heq
          exact absurd (List.cons.inj heq).1 hne
      | cons y ys =>
          simp only [List.flatMap_cons, List.append_assoc] at heq
          obtain ⟨rfl, hrest⟩ := hreads y _ _ (hys y List.mem_cons_self) trivial trivial heq
          obtain ⟨rfl, rfl⟩ := ih (fun z hz => hxs z (List.mem_cons_of_mem _ hz)) ys
            (fun z hz => hys z (List.mem_cons_of_mem _ hz)) (by simpa using hrest)
          exact ⟨rfl, rfl⟩

/-! ## Separated lists -/

/-- What follows an element: the end mark, or a separator and the next elements. -/
def afterElement (code : α → List β) (sep close : β) : List α → List β → List β
  | [], s => close :: s
  | x :: xs, s => sep :: (code x ++ afterElement code sep close xs s)

theorem intercalate_afterElement (sep close : β) (x : α) (xs : List α) (s : List β) :
    [sep].intercalate ((x :: xs).map code) ++ [close] ++ s =
      code x ++ afterElement code sep close xs s := by
  induction xs generalizing x with
  | nil => simp [afterElement]
  | cons y ys ih =>
      have hrest := ih y
      simp only [List.map_cons, List.intercalate_cons_cons, List.append_assoc,
        afterElement] at hrest ⊢
      rw [hrest]
      rfl

theorem afterElement_reads {sep close : β} (hne : sep ≠ close) (hsep : ∀ s, P (sep :: s))
    (hclose : ∀ s, P (close :: s)) {xs : List α} (hxs : ∀ x ∈ xs, ReadableAt D P code x)
    {ys : List α} {s t : List β} (hys : ∀ y ∈ ys, D y)
    (heq : afterElement code sep close xs s = afterElement code sep close ys t) :
    xs = ys ∧ s = t := by
  have hallowed : ∀ (zs : List α) (u : List β), P (afterElement code sep close zs u) := by
    intro zs u
    cases zs with
    | nil => exact hclose u
    | cons z zs => exact hsep _
  induction xs generalizing ys with
  | nil =>
      cases ys with
      | nil => exact ⟨rfl, (List.cons.inj heq).2⟩
      | cons y ys => exact absurd (List.cons.inj heq).1.symm hne
  | cons x xs ih =>
      cases ys with
      | nil => exact absurd (List.cons.inj heq).1 hne
      | cons y ys =>
          obtain ⟨rfl, hrest⟩ := hxs x List.mem_cons_self y _ _ (hys y List.mem_cons_self)
            (hallowed xs s) (hallowed ys t) (List.cons.inj heq).2
          obtain ⟨rfl, rfl⟩ := ih (fun z hz => hxs z (List.mem_cons_of_mem _ hz))
            (fun z hz => hys z (List.mem_cons_of_mem _ hz)) hrest
          exact ⟨rfl, rfl⟩

/-- The codes of a list with separators and an end mark that no code starts with. -/
theorem readableAt_separated {sep close : β} (hne : sep ≠ close) (hsep : ∀ s, P (sep :: s))
    (hclose : ∀ s, P (close :: s))
    (hstart : ∀ a, D a → ∃ x rest, code a = x :: rest ∧ x ≠ close) {xs : List α}
    (hxs : ∀ x ∈ xs, D x ∧ ReadableAt D P code x) :
    ReadableAt (fun ys => ∀ y ∈ ys, D y) Anything
      (fun xs => [sep].intercalate (xs.map code) ++ [close]) xs := by
  intro ys s t hys _ _ heq
  cases xs with
  | nil =>
      cases ys with
      | nil => exact ⟨rfl, (List.cons.inj heq).2⟩
      | cons y ys =>
          obtain ⟨z, rest, hcode, hz⟩ := hstart y (hys y List.mem_cons_self)
          rw [intercalate_afterElement, hcode] at heq
          exact absurd (List.cons.inj heq).1.symm hz
  | cons x xs =>
      obtain ⟨hx, -⟩ := hxs x List.mem_cons_self
      cases ys with
      | nil =>
          obtain ⟨z, rest, hcode, hz⟩ := hstart x hx
          rw [intercalate_afterElement, hcode] at heq
          exact absurd (List.cons.inj heq).1 hz
      | cons y ys =>
          rw [intercalate_afterElement, intercalate_afterElement] at heq
          have hboth : x :: xs = y :: ys ∧ s = t :=
            afterElement_reads hne hsep hclose (fun z hz => (hxs z hz).2) hys
              (by simpa [afterElement] using heq)
          exact hboth

/-! ## Codes of codes -/

/-- Of two sequences whose codes share a text, one continues the other. -/
theorem flatMap_continues {xs ys : List α} {s t : List β}
    (hreads : ∀ x, ReadableAt (fun _ => True) Anything code x)
    (heq : xs.flatMap code ++ s = ys.flatMap code ++ t) :
    (∃ zs, xs ++ zs = ys ∧ s = zs.flatMap code ++ t) ∨
      ∃ zs, ys ++ zs = xs ∧ t = zs.flatMap code ++ s := by
  induction xs generalizing ys with
  | nil => exact .inl ⟨ys, rfl, by simpa using heq⟩
  | cons x xs ih =>
      cases ys with
      | nil => exact .inr ⟨x :: xs, rfl, by simpa using heq.symm⟩
      | cons y ys =>
          simp only [List.flatMap_cons, List.append_assoc] at heq
          obtain ⟨rfl, hrest⟩ := hreads x y _ _ trivial trivial trivial heq
          rcases ih hrest with ⟨zs, rfl, hs⟩ | ⟨zs, rfl, ht⟩
          · exact .inl ⟨zs, rfl, hs⟩
          · exact .inr ⟨zs, rfl, ht⟩

/-- A readable code spelled in a readable alphabet is readable. -/
theorem ReadableAt.spell {word : γ → List α} {c : γ}
    (hreads : ∀ x, ReadableAt (fun _ => True) Anything code x)
    (hword : ReadableAt (fun _ => True) Anything word c) :
    ReadableAt (fun _ => True) Anything (fun c => (word c).flatMap code) c := by
  intro d s t _ _ _ heq
  rcases flatMap_continues hreads heq with ⟨zs, hzs, hs⟩ | ⟨zs, hzs, ht⟩
  · obtain ⟨rfl, rfl⟩ := hword d zs [] trivial trivial trivial (by rw [hzs, List.append_nil])
    exact ⟨rfl, by simpa using hs⟩
  · obtain ⟨rfl, hnil⟩ := hword d [] zs trivial trivial trivial (by rw [hzs, List.append_nil])
    rw [← hnil] at ht
    exact ⟨rfl, by simpa using ht.symm⟩

end UniqueReading
