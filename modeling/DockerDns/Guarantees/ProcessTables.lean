import DockerDns.Guarantees.DirectoryRuns
import DockerDns.Guarantees.ProcessRuns
import DockerDns.Guarantees.TableStates

/-!
# The tables of the process

The monitor of a process is the fold of the steps the process has made it take,
so what holds after every list of steps holds at every moment of every process,
whatever signals, failures and shutdowns come in between.
-/
namespace DockerDns.Guarantees
open Library Source

section Steps
variable {env : Env} {p p' : Process} {m : ProcessMove}

end Steps

section Examples
open Reference

end Examples
end DockerDns.Guarantees
