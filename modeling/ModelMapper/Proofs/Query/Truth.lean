import ModelMapper.Sqlite.Evaluation

/-! # The truth of filter trees

What a filter tree means once its comparisons have a truth, with `none` for unknown.

* `Node.truth` — groups are the conjunction, the disjunction and the denied conjunction of
  their children.
* `Truth.all_cons`, `Truth.any_cons`, … — the algebra of the connectives.
-/

namespace ModelMapper

namespace Truth

@[simp] theorem and_true (t : Truth) : t.and (some true) = t := by
  rcases t with _ | _ | _ <;> rfl

@[simp] theorem true_and (t : Truth) : Truth.and (some true) t = t := by
  rcases t with _ | _ | _ <;> rfl

@[simp] theorem or_false (t : Truth) : t.or (some false) = t := by
  rcases t with _ | _ | _ <;> rfl

@[simp] theorem false_or (t : Truth) : Truth.or (some false) t = t := by
  rcases t with _ | _ | _ <;> rfl

theorem and_assoc (t u v : Truth) : (t.and u).and v = t.and (u.and v) := by
  rcases t with _ | _ | _ <;> rcases u with _ | _ | _ <;> rcases v with _ | _ | _ <;> rfl

theorem or_assoc (t u v : Truth) : (t.or u).or v = t.or (u.or v) := by
  rcases t with _ | _ | _ <;> rcases u with _ | _ | _ <;> rcases v with _ | _ | _ <;> rfl

@[simp] theorem all_nil : all [] = some true := rfl

@[simp] theorem all_cons (t : Truth) (ts : List Truth) : all (t :: ts) = t.and (all ts) := rfl

@[simp] theorem any_nil : any [] = some false := rfl

@[simp] theorem any_cons (t : Truth) (ts : List Truth) : any (t :: ts) = t.or (any ts) := rfl

end Truth

namespace Node

mutual

/-- The truth of a tree whose comparisons have the given truths. What is no condition on its
    own is unknown. -/
def truth (a : Comparison → Truth) : Node → Truth
  | .comparison c => a c
  | .literal (.bool b) => some b
  | .literal _ => none
  | .field _ => none
  | .group .and children => Truth.all (truths a children)
  | .group .or children => Truth.any (truths a children)
  | .group .not children => (Truth.all (truths a children)).not

def truths (a : Comparison → Truth) : List Node → List Truth
  | [] => []
  | node :: rest => truth a node :: truths a rest

end

end Node

end ModelMapper
