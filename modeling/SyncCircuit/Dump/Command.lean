/-! # Commands of a value change dump

The text of a dump is a sequence of commands. A header is followed by declarations, which place every
channel in its modules, and by the values of the channels at ascending times.
-/

namespace SyncCircuit

/-- One command of a dump. -/
inductive Command where
  | date
  | version
  | timescale
  | scope (module : String)
  /-- Declare a channel. The output of a latch is a register, and everything else is a wire. -/
  | var (isLatchOutput : Bool) (id name : String)
  | upscope
  | endDefinitions
  /-- What follows holds from this time on. -/
  | time (stamp : Int)
  /-- The values of all channels follow. -/
  | dumpVars
  /-- The values of all channels are complete. -/
  | endVars
  | value (bit : Bool) (id : String)
  deriving DecidableEq, Repr

namespace Command

/-- The text of a command, which ends its line. -/
def text : Command → String
  | .date => "$date\n\thwsim Simulation\n$end\n"
  | .version => "$version\n\thwsim\n$end\n"
  | .timescale => "$timescale 1ns $end\n"
  | .scope module => "$scope module " ++ module ++ " $end\n"
  | .var isLatchOutput id name =>
      "$var " ++ (if isLatchOutput then "reg" else "wire") ++ " 1 " ++ id ++ " " ++ name ++ " $end\n"
  | .upscope => "$upscope $end\n"
  | .endDefinitions => "$enddefinitions $end\n"
  | .time stamp => "#" ++ toString stamp ++ "\n"
  | .dumpVars => "$dumpvars\n"
  | .endVars => "$end\n"
  | .value bit id => (if bit then "1" else "0") ++ id ++ "\n"

def render (commands : List Command) : String :=
  String.join (commands.map text)

theorem render_append (first second : List Command) :
    render (first ++ second) = render first ++ render second := by
  rw [render, List.map_append, String.join_append]
  rfl

theorem text_value (bit : Bool) (id : String) :
    (value bit id).text = (if bit then "1" else "0") ++ id ++ "\n" := rfl

end Command

end SyncCircuit
