import VirtualBoard.Image.Problem
import VirtualBoard.Text.Quoted

/-! Faults of a CPU model, and every failure that can end a run.

The text of a CPU fault and of a compiler's diagnostic is shown unchanged. -/
namespace VirtualBoard

inductive CpuFault.Kind where
  | invalidOpcode
  | memory
  | construction
  | other
  deriving DecidableEq, Repr, Inhabited

def CpuFault.Kind.name : CpuFault.Kind → String
  | invalidOpcode => "InvalidOpcode"
  | memory => "MemoryFault"
  | construction => "Construction"
  | other => "Other"

def CpuFault.Kind.all : List CpuFault.Kind := [invalidOpcode, memory, construction, other]

structure CpuFault where
  kind : CpuFault.Kind
  reason : String
  deriving DecidableEq, Repr

def CpuFault.inspect (f : CpuFault) : String :=
  "CpuFault \x7b kind: " ++ f.kind.name ++ ", reason: " ++ Text.quoted f.reason ++ " \x7d"

inductive Failure.Class where
  | compile
  | image
  | cpu
  | transport
  deriving DecidableEq, Repr

def Failure.Class.name : Failure.Class → String
  | compile => "Compile"
  | image => "Image"
  | cpu => "Cpu"
  | transport => "Transport"

def Failure.Class.all : List Failure.Class := [compile, image, cpu, transport]

inductive Failure where
  | compile (diagnostic : String)
  | image (problem : Image.Problem)
  | cpu (fault : CpuFault)
  | transport (reason : String)
  deriving DecidableEq, Repr

namespace Failure

def origin : Failure → Class
  | compile _ => .compile
  | image _ => .image
  | cpu _ => .cpu
  | transport _ => .transport

def message : Failure → String
  | compile diagnostic => diagnostic
  | image problem => "malformed image: " ++ problem.message
  | cpu fault => fault.reason
  | transport reason => "compilation failed: " ++ reason

def nothingReturned : Failure := transport "no image returned by the compiler"

end Failure
end VirtualBoard
