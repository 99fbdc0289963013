import Chip8.Proofs.Cycle.Record
import Chip8.Proofs.Machine.Dump

namespace Chip8

namespace Machine

variable {m n : Machine} {line : String}

end Machine

namespace Processor

variable {s t : Session}

end Processor

end Chip8
