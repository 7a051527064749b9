import BulkSync.Computation

namespace BulkSync

/-- Node 0 sends ones until it hears a two; another node counts the ones it hears and answers
with a two when it has heard the agreed number. -/
def pingPong (exchange : Int64) : Computation Int64 Unit where
  fields := [⟨"pings", .single .long⟩]
  aggregators := []
  init _ _ := .done ()
  compute place messages :=
    if place.node = 0 then
      if messages.waiting.any (· == 2) then NodeProgram.vote
      else NodeProgram.send 1 1
    else do
      let pings := messages.waiting.countP (· == 1)
      let old ← NodeProgram.read .long "pings"
      let total ← Program.ofExcept (addLongs old (Int64.ofNat pings))
      NodeProgram.write .long "pings" total
      if pings > 0 && total == exchange then NodeProgram.send 0 2
      NodeProgram.vote
  master _ _ := .done (false, ())

end BulkSync
