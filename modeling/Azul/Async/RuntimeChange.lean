import Azul.Async.Runtime

/-!
# Steps without order

What a step of the runtime does to the heap and to the multiset of pending instructions. A change
carries the guards of its instruction, what the program owes to a promise it completes or destroys,
and the two facts that nesting contributes: a running `WhenAll` still owns the activator that its
`func` copies, and a registering `Then` still owns the closure copies it will destroy.
-/

namespace Azul.Async

open Foundation

variable {V ε X : Type}

/-- The state an instruction is about to complete, and with what. -/
def Instr.decision : Instr V ε X → Option (StateId × Result V ε)
  | .setValue s value | .resolve s value => some (s, .ok value)
  | .setException s error => some (s, .error error)
  | _ => none

/-- The instruction belongs to a completing call of the state. -/
def Instr.completes (s : StateId) : Instr V ε X → Bool
  | .setValue t _ | .resolve t _ | .setException t _ | .walk t _ => t == s
  | _ => false

/-- A step of the runtime on the heap and the pending instructions. -/
inductive Change (h : Heap V ε) :
    Multiset (Instr V ε X) → Heap V ε → Multiset (Instr V ε X) → Prop
  | decide {others x s result} (decision : x.decision = some (s, result))
      (undecided : ∀ value, result = .ok value → ¬ h.Decided s) :
      Change h (x ::ₘ others) (h.decide s ((h.cell s).complete result)) (.walk s 0 ::ₘ others)
  | skip {others x s result} (decision : x.decision = some (s, result)) (decided : h.Decided s) :
      Change h (x ::ₘ others) h others
  | throw {others s value error} (decided : h.Decided s) :
      Change h (.resolve s value ::ₘ others) h (.setException s error ::ₘ others)
  | walkNext {others s index d} (found : (h.cell s).continuations[index]? = some d) :
      Change h (.walk s index ::ₘ others) h (.invoke d .listed ::ₘ .walk s (index + 1) ::ₘ others)
  | walkEnd {others s index} (ended : (h.cell s).continuations[index]? = none) :
      Change h (.walk s index ::ₘ others) h others
  | breakPromise {others s} :
      Change h (.aboutToDestroyPromise s ::ₘ others) (h.breakPromise s) (.clear s ::ₘ others)
  | clearNext {others s d rest} (found : (h.cell s).continuations = d :: rest) :
      Change h (.clear s ::ₘ others) (h.keepContinuations s rest)
        (.destroyClosure d .listed ::ₘ .clear s ::ₘ others)
  | clearEnd {others s} (ended : (h.cell s).continuations = []) :
      Change h (.clear s ::ₘ others) h others
  | invokeUser {others d copy s} (origin : h.origin d = some (.derived s .user)) :
      Change h (.invoke d copy ::ₘ others) (h.countInvocation d) (.inCallable d ::ₘ others)
  | invokeRelease {others d copy s all} (origin : h.origin d = some (.derived s (.release all))) :
      Change h (.invoke d copy ::ₘ others) ((h.countInvocation d).receive d (.ok .void))
        (.releaseActivator all (.closure d copy) ::ₘ .resolve d .void ::ₘ others)
  | invokeFire {others d copy s any} (origin : h.origin d = some (.derived s (.fire any))) :
      Change h (.invoke d copy ::ₘ others) ((h.countInvocation d).receive d (.ok .void))
        (.setValue any .void ::ₘ .resolve d .void ::ₘ others)
  | callableEnd {others d result x} (decision : x.decision = some (d, result))
      (resolves : ∀ value, x ≠ .setValue d value) (fits : result.fits (h.isVoid d) = true) :
      Change h (.inCallable d ::ₘ others) (h.receive d result) (x ::ₘ others)
  | destroyClosure {others d copy} :
      Change h (.destroyClosure d copy ::ₘ others) (h.dropCopy d copy)
        (((if h.lastCopy d copy then [.aboutToDestroyPromise d] else []) ++
          h.releaseCallable d copy : List (Instr V ε X)) + others)
  | storeClosure {others d s callable} (origin : h.origin d = some (.derived s callable))
      (undecided : ¬ h.Decided s) (lambda : .destroyClosure d .lambda ∈ others)
      (argument : .destroyClosure d .argument ∈ others) :
      Change h (.registerThen d ::ₘ others)
        (h.storeClosure s d callable ((h.cell s).append d)) others
  | runInline {others d s callable} (origin : h.origin d = some (.derived s callable))
      (decided : h.Decided s) :
      Change h (.registerThen d ::ₘ others) h (.invoke d .argument ::ₘ others)
  | releaseLast {others all owner} (last : h.lastOwner all owner) :
      Change h (.releaseActivator all owner ::ₘ others) (h.dropOwner all owner)
        (.setValue all .void ::ₘ others)
  | releaseOther {others all owner} (other : ¬ h.lastOwner all owner) :
      Change h (.releaseActivator all owner ::ₘ others) (h.dropOwner all owner) others
  | thenFunc {others s callable}
      (shared : ∀ all, callable = .release all → .releaseActivator all .funcVar ∈ others) :
      Change h (.thenFunc s callable ::ₘ others) (h.allocateThen s callable true)
        ((Instr.thenCode h.next : List (Instr V ε X)) + others)
  | newPromise {others isVoid} : Change h others (h.allocate isVoid .promise) others
  | complete {others s result x} (origin : h.origin s = some .promise)
      (decision : x.decision = some (s, result)) (direct : ∀ value, x ≠ .resolve s value)
      (fits : result.fits (h.isVoid s) = true) (live : h.destroyed s = false) :
      Change h others (h.receive s result) (x ::ₘ others)
  | destroyPromise {others s} (origin : h.origin s = some .promise)
      (live : h.destroyed s = false) (idle : ∀ x ∈ others, x.completes s = false) :
      Change h others { h with destroyed := Function.update h.destroyed s true }
        (.aboutToDestroyPromise s ::ₘ others)
  | «then» {others s isVoid} (valid : s < h.next) :
      Change h others (h.allocateThen s .user isVoid)
        ((Instr.thenCode h.next : List (Instr V ε X)) + others)
  | whenAll {others inputs} (valid : ∀ s ∈ inputs, s < h.next) :
      Change h others
        { h.allocate true (.whenAll inputs) with
          owners := Function.update h.owners h.next {.activatorVar, .funcVar} }
        ((inputs.map (fun s => .thenFunc s (.release h.next)) ++
          [.releaseActivator h.next .funcVar, .releaseActivator h.next .activatorVar] :
          List (Instr V ε X)) + others)
  | whenAny {others inputs} (valid : ∀ s ∈ inputs, s < h.next) :
      Change h others (h.allocate true (.whenAny inputs))
        ((inputs.map (fun s => .thenFunc s (.fire h.next)) : List (Instr V ε X)) + others)
  | enter {others} {code : List X} :
      Change h others h ((code.map .external : List (Instr V ε X)) + others)
  | leave {others x} : Change h (.external x ::ₘ others) h others

end Azul.Async
