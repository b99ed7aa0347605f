/-!
# Steps that can fail

A step that yields something behind another one has been reached, and a mapped step yields what it is mapped
from.
-/

namespace DisplayFilter

variable {fault first second : Type}

/-- A sequence of two steps yields what the second one yields behind the first. -/
theorem exists_of_bind_eq_ok {result : Except fault first} {next : first → Except fault second}
    {last : second} (hbind : result.bind next = .ok last) :
    ∃ middle, result = .ok middle ∧ next middle = .ok last := by
  cases result with
  | error => cases hbind
  | ok middle => exact ⟨middle, rfl, hbind⟩

theorem exists_of_map_eq_ok {result : Except fault first} {f : first → second} {last : second}
    (hmap : result.map f = .ok last) : ∃ middle, result = .ok middle ∧ f middle = last := by
  cases result with
  | error => cases hmap
  | ok middle => exact ⟨middle, rfl, Except.ok.inj hmap⟩

end DisplayFilter
