/-!
# Sizes of lists

How many bytes the items of a list take up together.
-/

namespace JavaClass

variable {α : Type}

/-- The sum of the sizes of the items. -/
def totalSize (size : α → Nat) (items : List α) : Nat :=
  items.foldr (fun a total => size a + total) 0

@[simp] theorem totalSize_nil (size : α → Nat) : totalSize size [] = 0 :=
  rfl

@[simp] theorem totalSize_cons (size : α → Nat) (a : α) (items : List α) :
    totalSize size (a :: items) = size a + totalSize size items :=
  rfl

theorem totalSize_append (size : α → Nat) (as bs : List α) :
    totalSize size (as ++ bs) = totalSize size as + totalSize size bs := by
  induction as with
  | nil => simp
  | cons a as ih => simp [ih, Nat.add_assoc]

theorem totalSize_of_forall {size : α → Nat} {n : Nat} {items : List α}
    (h : ∀ a ∈ items, size a = n) : totalSize size items = n * items.length := by
  induction items with
  | nil => rfl
  | cons a items ih =>
    rw [totalSize_cons, h a (List.mem_cons_self ..),
      ih fun b hb => h b (List.mem_cons_of_mem _ hb), List.length_cons, Nat.mul_succ, Nat.add_comm]

end JavaClass
