import DockerDns.Guarantees.NoticeHandling

/-!
# Keeping up with Docker

Which moves the monitor keeps up with, and what holds of the cache, the zone and
the queue in a run of such moves. Docker as the containers were listed is
remembered beside the system, to be compared with Docker at the subscription: what
happened in between was never announced. A container that was paused when it was
listed is not tracked, and nothing announces it later.
-/
namespace DockerDns.Guarantees
open Library Source

section Conditions

/-- The system, and Docker as `start` listed its containers. -/
structure Watched where
  system : System
  listed : Docker

/-- Before the listing nothing depends on what is remembered of it. -/
def Watched.initial (docker : Docker) (m₀ : Monitor) : Watched := ⟨.initial docker m₀, docker⟩

end Conditions

section Moves
variable {env : Env} {s : System} {listed : Docker}

end Moves

end DockerDns.Guarantees
