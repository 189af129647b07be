import EasyLoRa.TransportSystem

namespace EasyLoRa.TransportObjects

open EasyLoRa.TransportModel
open EasyLoRa.TransportSystem

/-- A variable of type `BasicSerialTransport`, with its `pimpl_m`: the number of a
`Pimpl`, or null after the object was moved from. The strand moves along with it. -/
inductive BasicSerialTransport where
  | alive (pimpl : Option Nat)
  | destroyed
deriving DecidableEq, Repr

def BasicSerialTransport.pimpl : BasicSerialTransport → Option Nat
  | .alive pimpl => pimpl
  | .destroyed => none

/-- A `Pimpl` with its strand; `closeCalled` says whether `close()` was ever called
on an object that owned it. A posted task or an operation keeps it alive. -/
structure Pimpl where
  transport : Transport
  closeCalled : Bool

/-- The objects and the `Pimpl`s, in the order of their construction. -/
structure Program where
  objects : List BasicSerialTransport
  pimpls : List Pimpl

def Program.init : Program := ⟨[], []⟩

inductive ObjectAction where
  | construct
  | moveConstruct (other : Nat)
  | moveAssign (object other : Nat)
  | destroy (object : Nat)
  | call (object : Nat) (request : Request)
  | asyncWrite (object : Nat) (toWrite : List UInt8) (packetID : Nat)
  | strand (pimpl : Nat) (action : Action)
deriving DecidableEq, Repr

/-- What happens to a `Pimpl` other than a call through its object: the steps of
`asyncWrite` calls in progress, strand tasks, the stream and its completions. -/
def isStrandAction : Action → Bool
  | .asyncWrite _ _ => false
  | .post _ => false
  | _ => true

def Pimpl.post (p : Pimpl) (request : Request) : Pimpl :=
  { p with transport :=
      { p.transport with posted := p.transport.posted ++ [.request request] } }

/-- A public method other than `asyncWrite`. -/
def callMethod (request : Request) (p : Pimpl) : Pimpl :=
  { p.post request with closeCalled := p.closeCalled || request = .close }

def updatePimpl (s : Program) (k : Nat) (update : Pimpl → Option Pimpl) : Option Program :=
  s.pimpls[k]?.bind fun p => (update p).map fun p => { s with pimpls := s.pimpls.set k p }

def stepPimpl (a : Action) (p : Pimpl) : Option Pimpl :=
  (step p.transport a).map fun t => { p with transport := t }

/-- One step of the program. Methods are called on objects that own a `Pimpl`, and
special members take objects that have not been destroyed. -/
def objectStep (s : Program) (a : ObjectAction) : Option Program :=
  if s.pimpls.any fun p => p.transport.ended.isSome then none
  else
    match a with
    | .construct =>
        some {
          objects := s.objects ++ [.alive (some s.pimpls.length)]
          pimpls := s.pimpls ++ [⟨Transport.init, false⟩] }
    | .moveConstruct other =>
        match s.objects[other]? with
        | some (.alive pimpl) =>
            some { s with objects := s.objects.set other (.alive none) ++ [.alive pimpl] }
        | _ => none
    | .moveAssign object other =>
        match s.objects[object]?, s.objects[other]? with
        | some (.alive _), some (.alive pimpl) =>
            if object = other then some s
            else some { s with
              objects := (s.objects.set object (.alive pimpl)).set other (.alive none) }
        | _, _ => none
    | .destroy object =>
        match s.objects[object]? with
        | some (.alive none) => some { s with objects := s.objects.set object .destroyed }
        | some (.alive (some k)) =>
            updatePimpl { s with objects := s.objects.set object .destroyed } k
              fun p => some (p.post .close)
        | _ => none
    | .call object request =>
        match s.objects[object]? with
        | some (.alive (some k)) => updatePimpl s k fun p => some (callMethod request p)
        | _ => none
    | .asyncWrite object toWrite packetID =>
        match s.objects[object]? with
        | some (.alive (some k)) => updatePimpl s k (stepPimpl (.asyncWrite toWrite packetID))
        | _ => none
    | .strand k action =>
        if isStrandAction action then updatePimpl s k (stepPimpl action) else none

end EasyLoRa.TransportObjects
