import Chip8.Proofs.Cycle.Fault
import Chip8.Proofs.Cycle.History

namespace Chip8

namespace Machine

end Machine

namespace Processor

variable {p : Processor} {s t : Session} {e : CycleError}

end Processor

end Chip8
