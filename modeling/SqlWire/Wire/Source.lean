import SqlWire.Text.Utf8

/-! Where bytes come from and where they go to. A source hands its bytes out in
deliveries of any size, may interrupt the reader between them, and ends cleanly
or with a fault that stays. A sink takes the bytes it is offered as its script
says, whole, in part or not at all. -/
namespace SqlWire

/-- The kinds of fault that reading and writing meet. -/
inductive IoKind where
  | notFound
  | connectionReset
  | brokenPipe
  | timedOut
  | unexpectedEof
  | invalidData
  | writeZero
  | other
deriving DecidableEq, Repr

/-- A fault met while reading or writing. -/
structure IoFault where
  kind : IoKind
  message : String
deriving DecidableEq, Repr

/-- What a source does when it is asked for bytes. -/
inductive Delivery where
  /-- Hand out these bytes, in several readings if fewer are asked for. -/
  | bytes (run : Bytes)
  /-- Hand out nothing, once; the reader asks again. -/
  | interrupted
deriving DecidableEq, Repr

/-- What comes behind the last delivery: the clean end, or a fault that every
further reading meets. -/
inductive Ending where
  | clean
  | fails (fault : IoFault)
deriving DecidableEq, Repr

structure Source where
  deliveries : List Delivery
  ending : Ending
deriving DecidableEq, Repr

namespace Source

/-- A source that hands out everything at once and ends cleanly. -/
def ofBytes (bytes : Bytes) : Source := ⟨[.bytes bytes], .clean⟩

/-- All bytes a source still hands out. -/
def content (source : Source) : Bytes :=
  source.deliveries.flatMap fun
    | .bytes run => run
    | .interrupted => []

/-- Take up to `count` bytes from a list of deliveries. -/
def takeFrom : Nat → List Delivery → Bytes × List Delivery
  | 0, deliveries => ([], deliveries)
  | _ + 1, [] => ([], [])
  | count + 1, .interrupted :: rest => takeFrom (count + 1) rest
  | count + 1, .bytes run :: rest =>
    match run.drop (count + 1) with
    | [] =>
      let (more, rest) := takeFrom (count + 1 - run.length) rest
      (run ++ more, rest)
    | behind => (run.take (count + 1), .bytes behind :: rest)

/-- Read `count` bytes, asking again as often as it takes. Fewer come back only
at the clean end; a fault loses the bytes before it. -/
def read (count : Nat) (source : Source) : Except IoFault Bytes × Source :=
  let (bytes, deliveries) := takeFrom count source.deliveries
  let rest := { source with deliveries := deliveries }
  if bytes.length = count then (.ok bytes, rest)
  else
    match source.ending with
    | .clean => (.ok bytes, rest)
    | .fails fault => (.error fault, rest)

/-- The first bytes in a list of deliveries, as many as come at once. -/
def pullFrom : List Delivery → Bytes × List Delivery
  | [] => ([], [])
  | .interrupted :: rest => pullFrom rest
  | .bytes [] :: rest => pullFrom rest
  | .bytes run :: rest => (run, rest)

/-- Read what comes next, asking again when interrupted. No bytes are the clean
end. -/
def pull (source : Source) : Except IoFault Bytes × Source :=
  let (bytes, deliveries) := pullFrom source.deliveries
  let rest := { source with deliveries := deliveries }
  if bytes.isEmpty then
    match source.ending with
    | .clean => (.ok [], rest)
    | .fails fault => (.error fault, rest)
  else (.ok bytes, rest)

/-- Take steps, one for each byte of a run, until one comes to a result, and go on
behind the run when none does. -/
def stepOver {σ ρ : Type} (step go : σ → σ ⊕ ρ) : Bytes → σ → σ ⊕ ρ
  | [], state => go state
  | _ :: run, state =>
    match step state with
    | .inl state => stepOver step go run state
    | result => result

/-- Take steps until one comes to a result: one for each byte of the deliveries,
and two more. That is enough for a reader whose steps each take a byte or more
but for its first and its last. -/
def repeatOver {σ ρ : Type} (step : σ → σ ⊕ ρ) : List Delivery → σ → σ ⊕ ρ
  | [], state =>
    match step state with
    | .inl state => step state
    | result => result
  | .interrupted :: rest, state => repeatOver step rest state
  | .bytes run :: rest, state => stepOver step (repeatOver step rest) run state

end Source

/-- What a sink does with the bytes it is offered. -/
inductive Acceptance where
  | all
  /-- The first half, rounded down. -/
  | half
  /-- This many at most. -/
  | upTo (most : Nat)
  | fails (fault : IoFault)
deriving DecidableEq, Repr

/-- A sink keeps what it took, run by run with the latest first. Past the ends of
its two scripts it takes all and flushes well. -/
structure Sink where
  runs : List Bytes
  acceptances : List Acceptance
  flushes : List (Option IoFault)
deriving DecidableEq, Repr

namespace Sink

/-- A sink that never fails. -/
def empty : Sink := ⟨[], [], []⟩

/-- All bytes a sink took. -/
def taken (sink : Sink) : Bytes := sink.runs.reverse.flatten

/-- The fault of a sink that takes nothing of what it is offered. -/
def nothingTaken : IoFault := ⟨.writeZero, "failed to write whole buffer"⟩

/-- Offer bytes again and again until all are taken. -/
def writeFrom (runs : List Bytes) : List Acceptance → Bytes →
    Option IoFault × List Bytes × List Acceptance
  | script, [] => (none, runs, script)
  | [], offered => (none, offered :: runs, [])
  | .fails fault :: script, _ => (some fault, runs, script)
  | .all :: script, offered => (none, offered :: runs, script)
  | .half :: script, offered =>
    let count := offered.length / 2
    if count = 0 then (some nothingTaken, runs, script)
    else writeFrom (offered.take count :: runs) script (offered.drop count)
  | .upTo most :: script, offered =>
    if most = 0 then (some nothingTaken, runs, script)
    else writeFrom (offered.take most :: runs) script (offered.drop most)

/-- Write all of `bytes`, or report the fault that came first. What was taken
before a fault stays. -/
def write (bytes : Bytes) (sink : Sink) : Option IoFault × Sink :=
  let (fault, runs, acceptances) := writeFrom sink.runs sink.acceptances bytes
  (fault, { sink with runs := runs, acceptances := acceptances })

/-- Flush, as the script says. -/
def flush (sink : Sink) : Option IoFault × Sink :=
  match sink.flushes with
  | [] => (none, sink)
  | outcome :: rest => (outcome, { sink with flushes := rest })

end Sink

end SqlWire
