/-
The logging of a process (`summer/src/log/bootstrap.rs`, `summer/src/log/mod.rs`, with
`AppBuilder::default` and `add_layer` of `summer/src/app.rs`).

The dispatcher of `tracing` and the logger of `log` can be set once in a process, by whoever comes
first.  The first `App::new` installs a subscriber with two slots, one for a placeholder layer and
one for a filter, and `LogPlugin` swaps in what is configured; so what is in the slots depends on
the whole history of the process (`slots_iff`), and the level of `log` goes with it
(`level_of_slots`).

What the subscriber does with an event, given its layers and its filter, is left out, and so is
what a layer writes, and where.
-/
import Mathlib.Logic.Function.Basic
import Summer.Lib.History

namespace Summer.Log

/-! ## Configuration -/

inductive LogLevel
  | off
  | trace
  | debug
  | info
  | warn
  | error
deriving DecidableEq, Repr

def LogLevel.toStr : LogLevel → String
  | .off => "off"
  | .trace => "trace"
  | .debug => "debug"
  | .info => "info"
  | .warn => "warn"
  | .error => "error"

structure LoggerFileAppender where
  enable : Bool
  nonBlocking : Bool
deriving DecidableEq, Repr

structure LoggerConfig where
  enable : Bool
  level : LogLevel
  overrideFilter : Option String
  fileAppender : Option LoggerFileAppender
deriving DecidableEq, Repr

/-! ## The process -/

/-- The layers of the subscriber: the one of the bootstrap, those of `add_layer`, and those that
`LogPlugin` makes. -/
inductive Layer (L : Type)
  | placeholder
  | added (layer : L)
  | file
  | stdout
  | error
deriving DecidableEq, Repr

/-- `tracing-subscriber` and the environment: `tryNew` is `EnvFilter::try_new`, `info` is
`EnvFilter::new("info")`, and `current` is `LevelFilter::current` with these in the slots, where
no other subscriber is in force in any scope. -/
structure World (L F : Type) where
  tryNew : String → Option F
  info : F
  current : List (Layer L) → F → LogLevel
  rustLog : Option String

/-- The global dispatcher: ours, with what is in its slots, or another one. -/
inductive Dispatcher (L F : Type)
  | bootstrap (layers : List (Layer L)) (filter : F)
  | other

/-- The logger of `log`: the bridge to `tracing`, or another one. -/
inductive Logger
  | bridge
  | other
deriving DecidableEq

/-- `installed` is `INSTALL`, `guard` is `NONBLOCKING_WORK_GUARD_KEEP`, `maxLevel` is that of `log`,
and `pending` holds the `layers` of each builder.  The handles of the slots work as long as the
dispatcher is ours: when it could not be set, the subscriber with the slots is gone. -/
structure Process (B L F : Type) where
  rustLog : Option String
  installed : Bool
  dispatcher : Option (Dispatcher L F)
  logger : Option Logger
  maxLevel : LogLevel
  guard : Bool
  pending : B → List L

variable {B L F : Type}

namespace Process

def start (w : World L F) : Process B L F where
  rustLog := w.rustLog
  installed := false
  dispatcher := none
  logger := none
  maxLevel := .off
  guard := false
  pending := fun _ => []

/-- `EnvFilter::try_from_default_env`. -/
def envFilter (w : World L F) (p : Process B L F) : Option F :=
  p.rustLog.bind w.tryNew

/-- The filter of the bootstrap. -/
def initialFilter (w : World L F) (p : Process B L F) : F :=
  (p.envFilter w).getD w.info

/-- `LogTracer::init`, with a maximum level: only a logger that is still free is set. -/
def initTracer (p : Process B L F) (level : LogLevel) : Process B L F :=
  match p.logger with
  | none => { p with logger := some .bridge, maxLevel := level }
  | some _ => p

/-- `SubscriberInitExt::try_init`. -/
def tryInit (w : World L F) (p : Process B L F) (layers : List (Layer L)) (filter : F) :
    Process B L F :=
  match p.dispatcher with
  | none =>
    { p with dispatcher := some (.bootstrap layers filter) }.initTracer (w.current layers filter)
  | some _ => p

/-- `install_bootstrap_logger`. -/
def install (w : World L F) (p : Process B L F) : Process B L F :=
  if p.installed then p
  else
    ({ p with installed := true }.tryInit w [.placeholder] (p.initialFilter w)).initTracer .trace

end Process

/-- A panic is `none`: of a file that cannot be opened, or of a work guard that is kept already. -/
def LoggerConfig.configSubscriber (config : LoggerConfig) (layers : List (Layer L))
    (fileOpens guard : Bool) : Option (List (Layer L) × Bool) :=
  let finish (layers : List (Layer L)) := if config.enable then layers ++ [.stdout] else layers
  match config.fileAppender with
  | some file =>
    if file.enable then
      if fileOpens then
        if file.nonBlocking then
          if guard then none else some (finish (layers ++ [.file]), true)
        else
          some (finish (layers ++ [.file]), guard)
      else
        none
    else
      some (finish layers, guard)
  | none => some (finish layers, guard)

/-- The directive where `RUST_LOG` gives no filter. -/
def LoggerConfig.directive (config : LoggerConfig) : String :=
  config.overrideFilter.getD config.level.toStr

namespace Process

def buildEnvFilter (w : World L F) (p : Process B L F) (config : LoggerConfig) : Option F :=
  (p.envFilter w).or (w.tryNew config.directive)

/-- `reload::Handle::modify` on either slot: at its end it brings the level of `log` in line. -/
def modify (w : World L F) (p : Process B L F) (change : List (Layer L) × F → List (Layer L) × F) :
    Process B L F :=
  match p.dispatcher with
  | some (.bootstrap layers filter) =>
    let changed := change (layers, filter)
    { p with
      dispatcher := some (.bootstrap changed.1 changed.2)
      maxLevel := w.current changed.1 changed.2 }
  | _ => p

/-- What `LogPlugin` does with the two handles. -/
def swap (w : World L F) (p : Process B L F) (layers : List (Layer L)) (filter : F) :
    Process B L F :=
  (p.modify w fun slots => (layers, slots.2)).modify w fun slots => (slots.1, filter)

variable [DecidableEq B]

/-- `LogPlugin::immediately_build`; a panic leaves the process as it is by then. -/
def build (w : World L F) (p : Process B L F) (builder : B) (fileOpens : Bool) :
    Option LoggerConfig → Process B L F
  | none => p
  | some config =>
    let taken := { p with pending := Function.update p.pending builder [] }
    match config.configSubscriber ((p.pending builder).map .added) fileOpens p.guard with
    | none => taken
    | some (layers, guard) =>
      match p.buildEnvFilter w config with
      | none => { taken with guard := guard }
      | some filter => { taken with guard := guard }.swap w (layers ++ [Layer.error]) filter

end Process

inductive Act (B L : Type)
  | newApp (builder : B)
  | addLayer (builder : B) (layer : L)
  /-- `LogPlugin` is built for this builder; its configuration may not load. -/
  | build (builder : B) (fileOpens : Bool) (config : Option LoggerConfig)
  | setRustLog (value : Option String)
  /-- Other code sets the dispatcher, the logger, or the level of `log`. -/
  | setDispatcher
  | setLogger
  | setMaxLevel (level : LogLevel)
deriving DecidableEq

variable [DecidableEq B]

def step (w : World L F) (p : Process B L F) : Act B L → Process B L F
  | .newApp builder =>
    { p.install w with pending := Function.update p.pending builder [] }
  | .addLayer builder layer =>
    { p with pending := Function.update p.pending builder (p.pending builder ++ [layer]) }
  | .build builder fileOpens config => p.build w builder fileOpens config
  | .setRustLog value => { p with rustLog := value }
  | .setDispatcher => { p with dispatcher := p.dispatcher.or (some .other) }
  | .setLogger => { p with logger := p.logger.or (some .other) }
  | .setMaxLevel level => { p with maxLevel := level }

def run (w : World L F) (acts : List (Act B L)) : Process B L F :=
  History.run (step w) (Process.start w) acts

end Summer.Log
