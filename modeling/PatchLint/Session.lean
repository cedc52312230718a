import PatchLint.Error
import PatchLint.Time.Instant

/-!
Computations that look at the machine they run on.

A `Host` is what a run finds: the files, the directory it starts in, the tools and how
they answer, the standard input and the clock. A `Session` reads the host, may call
tools and may fail; it gives back its result together with the calls it made, and it
changes no file. The result of a sequence of sessions depends on their results alone
(`result_bind`), so the record of calls never decides anything.
-/

namespace PatchLint

structure Invocation where
  program : String
  arguments : List String
  /-- The directory the tool works in. -/
  directory : Files.Location
  input : Octets
  deriving DecidableEq, Repr, Inhabited

structure Outcome where
  output : Octets
  errors : Octets
  /-- The exit code; none if the tool was stopped from outside. -/
  code : Option Nat
  deriving DecidableEq, Repr, Inhabited

namespace Outcome

/-- The exit code, or −1 if there is none. -/
def codeNumber (o : Outcome) : Int :=
  match o.code with
  | some n => n
  | none => -1

def isSuccess (o : Outcome) : Bool := o.code == some 0

end Outcome

structure Host where
  files : Files.Tree
  /-- The directory that the run starts in. -/
  directory : Files.Location
  /-- How a tool answers a call; none if it cannot be started. -/
  tools : Invocation → Option Outcome
  input : Octets
  clock : Time.Instant

/-- A computation on a host: a result and the calls it made, in order. -/
structure Session (α : Type) where
  run : Host → Except Error α × List Invocation

namespace Session

def result {α : Type} (s : Session α) (host : Host) : Except Error α := (s.run host).1

def calls {α : Type} (s : Session α) (host : Host) : List Invocation := (s.run host).2

def pure {α : Type} (a : α) : Session α := ⟨fun _ => (.ok a, [])⟩

def bind {α β : Type} (s : Session α) (next : α → Session β) : Session β :=
  ⟨fun host =>
    match s.run host with
    | (.error e, calls) => (.error e, calls)
    | (.ok a, calls) =>
      let (r, more) := (next a).run host
      (r, calls ++ more)⟩

instance : Monad Session where
  pure := Session.pure
  bind := Session.bind

def ofExcept {α : Type} (r : Except Error α) : Session α := ⟨fun _ => (r, [])⟩

def fail {α : Type} (e : Error) : Session α := ofExcept (.error e)

def look {α : Type} (f : Host → Except Error α) : Session α := ⟨fun host => (f host, [])⟩

/-- What comes of a session, whether it fails or not. -/
def attempt {α : Type} (s : Session α) : Session (Except Error α) :=
  ⟨fun host =>
    let (r, calls) := s.run host
    (.ok r, calls)⟩

/-- Runs a session for each element, whatever becomes of the others; the first failure in
the order of the elements is the failure of all. -/
def forAll {α β : Type} (f : α → Session β) : List α → Session (List β)
  | [] => pure []
  | a :: rest => do
    let r ← attempt (f a)
    let rs ← attempt (forAll f rest)
    ofExcept do return (← r) :: (← rs)

/-- Starts a tool in a directory. The outcome is none if the tool cannot be started,
which is also so when the directory is none; then there was no call. -/
def start (program : String) (arguments : List String) (directory : String) (input : Octets) :
    Session (Option Outcome) :=
  ⟨fun host =>
    match host.files.find host.directory directory with
    | .ok (loc, .dir) =>
      let call : Invocation := ⟨program, arguments, loc, input⟩
      match host.tools call with
      | some outcome => (.ok (some outcome), [call])
      | none => (.ok none, [])
    | _ => (.ok none, [])⟩

/-! ### Results -/

@[simp] theorem result_pure {α : Type} (a : α) (host : Host) :
    (Pure.pure a : Session α).result host = .ok a := rfl

@[simp] theorem result_bind {α β : Type} (s : Session α) (next : α → Session β) (host : Host) :
    (s >>= next).result host = (s.result host).bind fun a => (next a).result host := by
  show (Session.bind s next).result host = _
  simp only [result, Session.bind]
  rcases s.run host with ⟨_ | _, _⟩ <;> rfl

@[simp] theorem result_ofExcept {α : Type} (r : Except Error α) (host : Host) :
    (ofExcept r).result host = r := rfl

@[simp] theorem result_fail {α : Type} (e : Error) (host : Host) :
    (fail e : Session α).result host = .error e := rfl

@[simp] theorem result_look {α : Type} (f : Host → Except Error α) (host : Host) :
    (look f).result host = f host := rfl

@[simp] theorem result_attempt {α : Type} (s : Session α) (host : Host) :
    (attempt s).result host = .ok (s.result host) := rfl

/-- What comes of the elements decides, the first of them that fails. -/
@[simp] theorem result_forAll {α β : Type} (f : α → Session β) (l : List α) (host : Host) :
    (forAll f l).result host = l.mapM fun a => (f a).result host := by
  induction l with
  | nil => rfl
  | cons a l ih =>
      rw [List.mapM_cons, ← ih]
      simp only [forAll, result_bind, result_attempt, result_ofExcept, Except.bind]

end Session

end PatchLint
