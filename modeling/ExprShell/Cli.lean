/-
The command line: the interactive loop, a text or a script to run, or a word on the program
itself.
-/
import ExprShell.Machine.Host
import ExprShell.Repl
import ExprShell.Text.Lines

namespace ExprShell.Cli

variable {σ : Type}

def version : String := "0.3.0"

/-- What the arguments ask for. -/
inductive Request where
  | interactive
  | help
  | version
  | evaluate (text : String)
  | missingText
  | script (path : String)
  | unknown (option : String)
  deriving Inhabited, DecidableEq, Repr

/-- The request of the arguments; those after the first that counts are ignored. -/
def Request.ofArgs : List String → Request
  | [] => interactive
  | first :: rest =>
    match first with
    | "--help" | "-h" => help
    | "--version" | "-V" => version
    | "-c" =>
      match rest with
      | text :: _ => evaluate text
      | [] => missingText
    | first => if first.startsWith "-" then unknown first else script first

def helpText : String :=
  s!"exprsh v{version}

Usage:
  exprsh                 Interactive shell
  exprsh -c <text>       Evaluate text and exit
  exprsh <script>        Run a script file

Options:
  -c <text>              Evaluate a string and exit
  -h, --help             Show this help
  -V, --version          Show version

Environment:
  PATH                   Directories searched for external programs
  EXPRSH_MAX_DEPTH       Maximum nesting of procedure calls (default 256)
  RUST_LOG               Log filter, e.g. RUST_LOG=exprsh=debug

"

/-- A shell with the settings that the host's variables give. -/
def setup (host : Host σ) (h : σ) : Setup σ :=
  { host
    settings := Settings.ofVariables (host.valueOf? h "PATH")
      (host.valueOf? h "EXPRSH_MAX_DEPTH") }

/-- The status to exit with after an evaluation that failed or succeeded, with the failure
reported. -/
def conclude (host : Host σ) (r : Except Halt Node) (s : State σ) : Nat × State σ :=
  match r with
  | .ok _ => (0, s)
  | .error (.exit status) => (exitStatus status, s)
  | .error (.fault f) => (1, s.warn host (Report.fault f))
  | .error _ => (1, s.warn host Report.cutOff)

/-- Evaluates a text and shows its value. -/
def evaluate (setup : Setup σ) (text : String) (s : State σ) : Nat × State σ :=
  match Session.evaluate setup text s with
  | (.ok n, s) => (0, s.echo setup.host n)
  | (r, s) => conclude setup.host r s

/-- Runs a script. -/
def script (setup : Setup σ) (path : String) (s : State σ) : Nat × State σ :=
  match Session.loadFile setup path s with
  | (r, s) => conclude setup.host r (Session.reset s)

/-- Runs the command line on a host, with the lines of the input, and gives the status to
exit with. -/
def run (host : Host σ) (args : List String) (lines : List (Option String)) (h : σ) :
    Nat × σ :=
  let setup := setup host h
  let start := Session.start h
  let (status, s) := match Request.ofArgs args with
    | .interactive => Repl.run setup { state := start } lines
    | .help => (0, start.tell host helpText)
    | .version => (0, start.tell host s!"exprsh {version}\n")
    | .evaluate text => evaluate setup text start
    | .missingText => (1, start.warn host "Error: -c requires an expression argument\n")
    | .script path => script setup path start
    | .unknown option =>
      (1, start.warn host
        s!"Unknown option: {option}\nRun 'exprsh --help' for usage.\n")
  (status, s.host)

/-- Runs the command line on a machine. The interactive loop takes all of the input, otherwise
programs can read it. -/
def runOn (m : Machine) (args : List String) (input : ByteArray) : Nat × Machine :=
  match Request.ofArgs args with
  | .interactive => run Machine.host args (Text.lines input) m
  | _ => run Machine.host args [] { m with input }

end ExprShell.Cli
