/-
TaskTimer.Proofs.Json.Reader — a written value is read back.

Reading the tokens of a value gives the value and leaves what stands behind it (`Spelled`). The
bound of the descent is two for every token, which is always enough: one for the value that the
token begins, and one for the list that the value stands in. Together with the tokens of a text
this is `parse?_render`: what is written is read back.
-/
import TaskTimer.Json.Reader
import TaskTimer.Proofs.Json.Token

namespace TaskTimer.Json

/-- The tokens of the value are read as the value. -/
def Spelled (x : Json) : Prop :=
  ∀ {bound : Nat} (rest : List Token), 2 * x.tokens.length ≤ bound →
    value? bound (x.tokens ++ rest) = some (x, rest)

/-- A value begins with a token that closes nothing. -/
theorem tokens_eq_cons (x : Json) : ∃ t ts, x.tokens = t :: ts ∧ t ≠ .closeArray := by
  cases x with
  | null => exact ⟨.null, [], rfl, by simp⟩
  | bool b => exact ⟨.bool b, [], rfl, by simp⟩
  | num n => exact ⟨.num n, [], rfl, by simp⟩
  | str s => exact ⟨.str s, [], rfl, by simp⟩
  | arr xs => cases xs <;> exact ⟨.openArray, _, rfl, by simp⟩
  | obj fields => cases fields <;> exact ⟨.openObject, _, rfl, by simp⟩

theorem exists_succ {n bound : Nat} (h : n + 1 ≤ bound) : ∃ b, bound = b + 1 ∧ n ≤ b :=
  ⟨bound - 1, by omega, by omega⟩

theorem elements?_spelled {x : Json} {xs : List Json} (hx : Spelled x)
    (hxs : ∀ y ∈ xs, Spelled y) {bound : Nat} (rest : List Token)
    (hbound : 2 * (x.tokens.length + (tokensOfElements xs).length) + 1 ≤ bound) :
    elements? bound (x.tokens ++ (tokensOfElements xs ++ .closeArray :: rest)) =
      some (x :: xs, rest) := by
  induction xs generalizing x bound with
  | nil =>
    obtain ⟨bound, rfl, hb⟩ := exists_succ hbound
    have hread := hx (.closeArray :: rest) (show 2 * x.tokens.length ≤ bound by omega)
    rw [tokensOfElements, List.nil_append, elements?, hread]
  | cons y ys ih =>
    obtain ⟨hy, hys⟩ := List.forall_mem_cons.1 hxs
    obtain ⟨bound, rfl, hb⟩ := exists_succ hbound
    simp only [tokensOfElements, List.length_cons, List.length_append] at hb
    have hread := hx (.comma :: (y.tokens ++ (tokensOfElements ys ++ .closeArray :: rest)))
      (show 2 * x.tokens.length ≤ bound by omega)
    have hall := ih hy hys (show _ ≤ bound by omega)
    rw [tokensOfElements, List.cons_append, List.append_assoc, elements?, hread]
    simp only [hall]
    rfl

theorem fields?_spelled (name : Option String) {x : Json} {fields : List (Option String × Json)}
    (hx : Spelled x) (hxs : ∀ f ∈ fields, Spelled f.2) {bound : Nat} (rest : List Token)
    (hbound : 2 * (x.tokens.length + (tokensOfFields fields).length) + 1 ≤ bound) :
    fields? bound
        (.str name :: .colon :: (x.tokens ++ (tokensOfFields fields ++ .closeObject :: rest))) =
      some ((name, x) :: fields, rest) := by
  induction fields generalizing name x bound with
  | nil =>
    obtain ⟨bound, rfl, hb⟩ := exists_succ hbound
    have hread := hx (.closeObject :: rest) (show 2 * x.tokens.length ≤ bound by omega)
    rw [tokensOfFields, List.nil_append, fields?, hread]
  | cons f fields ih =>
    obtain ⟨next, y⟩ := f
    obtain ⟨hy, hys⟩ : Spelled y ∧ ∀ f ∈ fields, Spelled f.2 := List.forall_mem_cons.1 hxs
    obtain ⟨bound, rfl, hb⟩ := exists_succ hbound
    simp only [tokensOfFields, List.length_cons, List.length_append] at hb
    have hread := hx (.comma :: .str next :: .colon ::
      (y.tokens ++ (tokensOfFields fields ++ .closeObject :: rest)))
      (show 2 * x.tokens.length ≤ bound by omega)
    have hall := ih next hy hys (show _ ≤ bound by omega)
    simp only [tokensOfFields, List.cons_append, List.append_assoc]
    rw [fields?, hread]
    simp only [hall]
    rfl

theorem value?_openArray {bound : Nat} {t : Token} {ts : List Token} (h : t ≠ .closeArray) :
    value? (bound + 1) (.openArray :: t :: ts) =
      (elements? bound (t :: ts)).map fun (xs, rest) => (.arr xs, rest) := by
  rw [value?]
  rintro rest ⟨⟩
  exact h rfl

theorem spelled_arr {xs : List Json} (hxs : ∀ x ∈ xs, Spelled x) : Spelled (.arr xs) := by
  intro bound rest hbound
  cases xs with
  | nil =>
    obtain ⟨bound, rfl, -⟩ := exists_succ (show 0 + 1 ≤ bound by simp [tokens] at hbound; omega)
    rfl
  | cons x xs =>
    obtain ⟨hx, hxs⟩ := List.forall_mem_cons.1 hxs
    simp only [tokens, List.length_cons, List.length_append, List.length_nil] at hbound
    obtain ⟨bound, rfl, -⟩ := exists_succ (show 0 + 1 ≤ bound by omega)
    have hall := elements?_spelled hx hxs rest (show _ ≤ bound by omega)
    obtain ⟨t, ts, hts, ht⟩ := x.tokens_eq_cons
    simp only [tokens, List.cons_append, List.append_assoc, List.nil_append]
    rw [hts, List.cons_append] at hall ⊢
    rw [value?_openArray ht, hall]
    rfl

theorem spelled_obj {fields : List (Option String × Json)} (hxs : ∀ f ∈ fields, Spelled f.2) :
    Spelled (.obj fields) := by
  intro bound rest hbound
  cases fields with
  | nil =>
    obtain ⟨bound, rfl, -⟩ := exists_succ (show 0 + 1 ≤ bound by simp [tokens] at hbound; omega)
    rfl
  | cons f fields =>
    obtain ⟨name, x⟩ := f
    obtain ⟨hx, hxs⟩ : Spelled x ∧ ∀ f ∈ fields, Spelled f.2 := List.forall_mem_cons.1 hxs
    simp only [tokens, List.length_cons, List.length_append, List.length_nil] at hbound
    obtain ⟨bound, rfl, -⟩ := exists_succ (show 0 + 1 ≤ bound by omega)
    have hall := fields?_spelled name hx hxs rest (show _ ≤ bound by omega)
    simp only [tokens, List.cons_append, List.append_assoc, List.nil_append]
    rw [value?, hall]
    · rfl
    · rintro rest ⟨⟩

/-- The tokens of a value that has a text are read as the value. -/
theorem spelled {x : Json} (h : HasText x) : Spelled x := by
  induction h with
  | null | bool _ | nat _ | text _ =>
    intro bound rest hbound
    obtain ⟨bound, rfl, -⟩ := exists_succ (show 0 + 1 ≤ bound by
      simp [tokens, nat, text] at hbound; omega)
    rfl
  | arr _ ih => exact spelled_arr ih
  | obj _ _ ih => exact spelled_obj ih

/-- **What is written is read back.** -/
theorem parse?_render {x : Json} (h : HasText x) : parse? x.render = some x := by
  have hread := spelled h [] (show _ ≤ 2 * x.tokens.length + 2 by omega)
  rw [List.append_nil] at hread
  rw [parse?, render, String.toList_ofList, tokens?_chars h, Option.bind_some, ofTokens?, hread]

end TaskTimer.Json
