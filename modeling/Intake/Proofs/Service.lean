import Intake.Delivery.Basic

/-! A service that accepts each delivery by a fixed rule, and keeps for each email the last delivery
that it accepted. Whatever it is sent twice over, it keeps as if it had been sent once. -/
namespace Intake

abbrev Holdings := Text → Option Delivery

namespace Holdings
variable (accepts : Delivery → Bool)

def take (held : Holdings) (delivery : Delivery) : Holdings := fun email =>
  if accepts delivery ∧ delivery.contact.email? = some email then some delivery else held email

def takeAll (held : Holdings) (deliveries : List Delivery) : Holdings :=
  deliveries.foldl (take accepts) held

def last? (deliveries : List Delivery) (email : Text) : Option Delivery :=
  deliveries.reverse.find? fun delivery =>
    accepts delivery ∧ delivery.contact.email? = some email

theorem takeAll_append (held : Holdings) (first second : List Delivery) :
    takeAll accepts held (first ++ second) = takeAll accepts (takeAll accepts held first) second :=
  List.foldl_append

/-- The last accepted delivery of an email is kept, or what was held before if there is none. -/
theorem takeAll_eq (held : Holdings) (deliveries : List Delivery) (email : Text) :
    takeAll accepts held deliveries email = (last? accepts deliveries email).or (held email) := by
  induction deliveries generalizing held with
  | nil => rfl
  | cons delivery rest ih =>
    have step : takeAll accepts held (delivery :: rest)
        = takeAll accepts (take accepts held delivery) rest := rfl
    have split : last? accepts (delivery :: rest) email
        = (last? accepts rest email).or (last? accepts [delivery] email) := by
      simp [last?, List.find?_append]
    rw [step, ih, split, Option.or_assoc]
    congr 1
    by_cases taken : accepts delivery = true ∧ delivery.contact.email? = some email <;>
      simp [take, last?, taken]

/-- Deliveries that are sent twice over are kept as if they had been sent once. -/
theorem takeAll_twice (held : Holdings) (deliveries : List Delivery) :
    takeAll accepts (takeAll accepts held deliveries) deliveries
      = takeAll accepts held deliveries := by
  funext email
  rw [takeAll_eq, takeAll_eq]
  cases last? accepts deliveries email <;> rfl

theorem takeAll_overlap (held : Holdings) (before common after : List Delivery) :
    takeAll accepts held (before ++ common ++ (common ++ after))
      = takeAll accepts held (before ++ (common ++ after)) := by
  simp only [takeAll_append, takeAll_twice]

end Holdings
end Intake
