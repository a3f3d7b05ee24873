/-
A callback small enough to watch: it adds two numbers in a record, and panics on one of them.
-/
import ScriptHost.Callback

namespace ScriptHost

structure Addition where
  input : Int64
  output : Int64
  deriving DecidableEq, Repr

namespace Addition

/-- A record that no callback has filled. -/
def asking (input : Int64) : Addition :=
  ⟨input, -1⟩

/-- Puts the input plus a summand into the output, but for one input, on which it panics. -/
def adding (summand : Int64) (panicAt : Option Int64) (r : Addition) : Addition × Outcome Unit :=
  if panicAt = some r.input then
    (r, .panicked (.text ("callback failed on " ++ toString r.input.toInt)))
  else ({ r with output := r.input + summand }, .returned ())

/-- Has a callback fill one record for each input. -/
def fillAll (callback : ForeignCallback Addition) (inputs : List Int64) :
    List Int64 × List LogEvent :=
  let filled := inputs.map fun input => callback.fill (asking input)
  (filled.map (·.1.output), filled.flatMap (·.2))

end Addition
end ScriptHost
