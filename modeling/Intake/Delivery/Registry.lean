import Intake.Delivery.Plan

/-! The ways of delivery that settings can name. -/
namespace Intake

inductive OwnCourier
  | dry
  | http (options : List (Datum × Datum))

namespace Registry

/-- A maker that takes options of the given names, among them all that are required. -/
def maker {ω : Type} (names required : List Text) (make : List (Datum × Datum) → ω) : Maker ω :=
  fun options =>
    let known := options.all fun entry =>
      match entry.1 with
      | .text name => names.contains name
      | _ => false
    if known && required.all fun name => (Datum.get? name options).isSome then some (make options)
    else none

/-- The modules of the importer, where its own ways of delivery are found, beside those of others. -/
def own {ω : Type} (make : OwnCourier → ω) (others : Registry ω) : Registry ω :=
  let dry : Text × Maker ω := ("DryRunWriter", maker [] [] fun _ => make .dry)
  let http : Text × Maker ω :=
    ("HttpContactWriter", maker ["base_url", "token", "timeout", "transport"] ["base_url"]
      fun options => make (.http options))
  ("contact_importer.remote.sample", [dry]) :: ("contact_importer.remote.api_client", [http]) ::
    ("contact_importer.remote", [dry, http]) :: ("contact_importer", []) :: others

end Registry
end Intake
