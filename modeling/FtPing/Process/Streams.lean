import FtPing.Output.Shown
import FtPing.Process.Lifetime

namespace FtPing.Process

open Bytes CLib Interaction

variable {N : Type} {net : Network N} {monotone : Prop} {m : Invocation} {n : N}

-- The id as it stands in memory, and the size of the receive buffer.
def Invocation.id (m : Invocation) : UInt16 := htons m.host (UInt16.ofNat m.pid)

def recvbuf_len (flags : Flags) : Nat := (ctx_size_buffers flags).2

end FtPing.Process
