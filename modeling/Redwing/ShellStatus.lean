/-
Exit statuses in the interpreter of the shell, `sh/interpreter/mod.rs`: what
`exec_ast` records for a command, and what its forked children pass on.
-/
import Redwing.ShellTokens

namespace Redwing.Shell

structure VarString where
  isVar : Bool
  str : EscapeStr

inductive ShellAst
  | empty
  | list (items : List ShellAst)
  | exec (args : List VarString)
  | background (cmd : ShellAst)
  | redirect (cmd : ShellAst) (isOutput : Bool) (fileName : VarString) (append : Bool)
  | pipe (left right : ShellAst)

/-- How a forked child ends: behind its closure, which has returned with or
without an error, by an exit inside of the closure, or by a signal. -/
inductive ChildEnd
  | returned
  | exited (status : Nat)
  | signalled (signal : Nat)

/-- The exit status of a child of `fork_with` or `fork2`: behind the closure is
a `process::exit(127)`, and `handle_action` of the kernel sets that of a task
which it terminates. -/
def ChildEnd.status : ChildEnd → Nat
  | .returned => 127
  | .exited status => status
  | .signalled signal => 128 + signal

/-- What a child that runs `exec_ast` was forked for. -/
inductive Role
  | redirected
  | left
  | right

variable {σ : Type}

/-- What the words of a command are: nothing but unset variables, an internal
command, or the name of a program for `execp` in a child. -/
inductive Command (σ : Type)
  | nothing
  | internal (vars : σ) (ok : Bool)
  | program (child : ChildEnd)

/-- The status in `Environment`, and the variables and the directory of the
process. -/
structure Env (σ : Type) where
  status : Nat
  vars : σ

/-- The system that the shell runs on; its forks, waits and pipes succeed.
`killed` is the signal that ends a child which interprets a tree, if one does. -/
structure System (σ : Type) where
  command : σ → List VarString → Command σ
  opens : σ → VarString → Bool
  killed : σ → Role → ShellAst → Option Nat

namespace System

variable (sys : System σ)

/-- `exec_command`, which forks for a program only. -/
def execCommand (args : List VarString) (env : Env σ) : Env σ :=
  match sys.command env.vars args with
  | .nothing => env
  | .internal vars ok => ⟨if ok then env.status else 1, vars⟩
  | .program child => { env with status := child.status }

/-- The end of a child that interprets `cmd`.  The environment that `exec_ast`
leaves in the child, unless its closure fails before that, goes with it. -/
def interpreted (vars : σ) (role : Role) (cmd : ShellAst) (_child : Option (Env σ)) : ChildEnd :=
  match sys.killed vars role cmd with
  | some signal => .signalled signal
  | none => .returned

mutual

def execAst : ShellAst → Env σ → Env σ
  | .empty, env => env
  | .list items, env => execList items env
  -- the status of the child is not recorded
  | .background _, env => env
  | .exec args, env => sys.execCommand args env
  | .redirect cmd _ fileName _, env =>
    let child := if sys.opens env.vars fileName then some (execAst cmd env) else none
    { env with status := (sys.interpreted env.vars .redirected cmd child).status }
  | .pipe left right, env =>
    let status0 := (sys.interpreted env.vars .right right (some (execAst right env))).status
    let status1 := (sys.interpreted env.vars .left left (some (execAst left env))).status
    { env with status := if status0 ≠ 0 then status0 else status1 }

def execList : List ShellAst → Env σ → Env σ
  | [], env => env
  | cmd :: items, env => execList items (execAst cmd env)

end

/-! ### Which part of a command decides its status -/

mutual

/-- What a command runs one after the other in the foreground of the shell: its
simple commands, redirections and pipelines outside of any other. -/
def parts : ShellAst → List ShellAst
  | .empty | .background _ => []
  | .list items => partsList items
  | .exec args => [.exec args]
  | .redirect cmd isOutput fileName append => [.redirect cmd isOutput fileName append]
  | .pipe left right => [.pipe left right]

def partsList : List ShellAst → List ShellAst
  | [] => []
  | cmd :: items => parts cmd ++ partsList items

end

/-- The status with which a child that interprets a tree ends. -/
def childStatus (vars : σ) (role : Role) (cmd : ShellAst) : Nat :=
  match sys.killed vars role cmd with
  | some signal => 128 + signal
  | none => 127

/-- The status that a part records, if it records one: that of its program or of
its child, and 1 for an internal command that fails. -/
def records (vars : σ) : ShellAst → Option Nat
  | .exec args =>
    match sys.command vars args with
    | .program child => some child.status
    | .internal _ false => some 1
    | _ => none
  | .redirect cmd _ _ _ => some (sys.childStatus vars .redirected cmd)
  | .pipe _ right => some (sys.childStatus vars .right right)
  | _ => none

def varsAfter (vars : σ) : ShellAst → σ
  | .exec args =>
    match sys.command vars args with
    | .internal vars _ => vars
    | _ => vars
  | _ => vars

/-- None of the parts records a status. -/
inductive Silent : σ → List ShellAst → Prop
  | nil {vars : σ} : Silent vars []
  | cons {vars : σ} {part : ShellAst} {rest : List ShellAst} (silent : sys.records vars part = none)
      (later : Silent (sys.varsAfter vars part) rest) : Silent vars (part :: rest)

/-- The last of the parts that records a status records this one. -/
inductive Ends (status : Nat) : σ → List ShellAst → Prop
  | last {vars : σ} {part : ShellAst} {rest : List ShellAst}
      (record : sys.records vars part = some status)
      (silent : sys.Silent (sys.varsAfter vars part) rest) : Ends status vars (part :: rest)
  | later {vars : σ} {part : ShellAst} {rest : List ShellAst}
      (later : Ends status (sys.varsAfter vars part) rest) : Ends status vars (part :: rest)

/-- A command leaves this status: its last part that records one records it, or
none does and it is there from before. -/
def Leaves (status : Nat) (cmd : ShellAst) (env : Env σ) : Prop :=
  sys.Ends status env.vars (parts cmd) ∨ sys.Silent env.vars (parts cmd) ∧ env.status = status

def execPart (env : Env σ) (part : ShellAst) : Env σ :=
  ⟨(sys.records env.vars part).getD env.status, sys.varsAfter env.vars part⟩

lemma interpreted_status (vars : σ) (role : Role) (cmd : ShellAst) (child : Option (Env σ)) :
    (sys.interpreted vars role cmd child).status = sys.childStatus vars role cmd := by
  rw [interpreted, childStatus]
  split <;> rfl

lemma childStatus_ne_zero (vars : σ) (role : Role) (cmd : ShellAst) :
    sys.childStatus vars role cmd ≠ 0 := by
  rw [childStatus]
  split <;> omega

lemma status_redirect (cmd : ShellAst) (isOutput append : Bool) (fileName : VarString)
    (env : Env σ) : sys.execAst (.redirect cmd isOutput fileName append) env =
      { env with status := sys.childStatus env.vars .redirected cmd } := by
  rw [execAst]
  simp only [interpreted_status]

/-- `fork2` returns the status of the right side, which is never 0. -/
lemma status_pipe (left right : ShellAst) (env : Env σ) : sys.execAst (.pipe left right) env =
      { env with status := sys.childStatus env.vars .right right } := by
  rw [execAst]
  simp only [interpreted_status, ne_eq, childStatus_ne_zero, not_false_eq_true, ↓reduceIte]

lemma execCommand_eq (args : List VarString) (env : Env σ) :
    sys.execCommand args env = sys.execPart env (.exec args) := by
  rw [execCommand, execPart, records, varsAfter]
  cases sys.command env.vars args with
  | nothing => rfl
  | internal vars ok => cases ok <;> rfl
  | program child => rfl

mutual

/-- A command does what its parts do, one after the other. -/
lemma execAst_eq_parts : ∀ (cmd : ShellAst) (env : Env σ),
    sys.execAst cmd env = (parts cmd).foldl sys.execPart env
  | .empty, env => by rw [execAst, parts, List.foldl_nil]
  | .background cmd, env => by rw [execAst, parts, List.foldl_nil]
  | .list items, env => by rw [execAst, parts, execList_eq_parts items]
  | .exec args, env => by
    rw [execAst, parts, execCommand_eq, List.foldl_cons, List.foldl_nil]
  | .redirect cmd isOutput fileName append, env => by
    rw [status_redirect, parts, List.foldl_cons, List.foldl_nil]
    rfl
  | .pipe left right, env => by
    rw [status_pipe, parts, List.foldl_cons, List.foldl_nil]
    rfl

lemma execList_eq_parts : ∀ (items : List ShellAst) (env : Env σ),
    sys.execList items env = (partsList items).foldl sys.execPart env
  | [], env => by rw [execList, partsList, List.foldl_nil]
  | cmd :: items, env => by
    rw [execList, partsList, List.foldl_append, execAst_eq_parts cmd, execList_eq_parts items]

end

lemma silent_cons_iff {vars : σ} {part : ShellAst} {rest : List ShellAst} :
    sys.Silent vars (part :: rest) ↔
      sys.records vars part = none ∧ sys.Silent (sys.varsAfter vars part) rest :=
  ⟨fun h => by cases h with | cons silent later => exact ⟨silent, later⟩,
    fun ⟨silent, later⟩ => .cons silent later⟩

lemma ends_cons_iff {status : Nat} {vars : σ} {part : ShellAst} {rest : List ShellAst} :
    sys.Ends status vars (part :: rest) ↔ sys.Ends status (sys.varsAfter vars part) rest ∨
      sys.records vars part = some status ∧ sys.Silent (sys.varsAfter vars part) rest := by
  refine ⟨fun h => ?_, fun h => h.elim .later fun ⟨record, silent⟩ => .last record silent⟩
  cases h with
  | last record silent => exact .inr ⟨record, silent⟩
  | later later => exact .inl later

lemma foldl_status_iff (status : Nat) (rest : List ShellAst) (env : Env σ) :
    (rest.foldl sys.execPart env).status = status ↔
      sys.Ends status env.vars rest ∨ sys.Silent env.vars rest ∧ env.status = status := by
  induction rest generalizing env with
  | nil => exact ⟨fun h => .inr ⟨.nil, h⟩, fun h => h.elim nofun And.right⟩
  | cons part rest ih =>
    rw [List.foldl_cons, ih, ends_cons_iff, silent_cons_iff]
    simp only [execPart]
    cases sys.records env.vars part with
    | none => simp
    | some recorded => simp [and_comm]

lemma leaves_iff (status : Nat) (cmd : ShellAst) (env : Env σ) :
    sys.Leaves status cmd env ↔ (sys.execAst cmd env).status = status := by
  rw [execAst_eq_parts, foldl_status_iff, Leaves]

/-- A redirection passes the status of its command on exactly if the command by
itself leaves the status of the child, 127 or that of the signal which has ended
the child; a pipeline records the status of a side exactly if one of them leaves
that of the child on the right. -/
theorem status_passed_on_iff (env : Env σ) : (∀ cmd isOutput fileName append,
      (sys.execAst (.redirect cmd isOutput fileName append) env).status =
        (sys.execAst cmd env).status ↔
          sys.Leaves (sys.childStatus env.vars .redirected cmd) cmd env) ∧
      ∀ left right, (((sys.execAst (.pipe left right) env).status = (sys.execAst left env).status ∨
        (sys.execAst (.pipe left right) env).status = (sys.execAst right env).status) ∧
        ((sys.execAst left env).status = 0 → (sys.execAst right env).status = 0 →
          (sys.execAst (.pipe left right) env).status = 0)) ↔
        sys.Leaves (sys.childStatus env.vars .right right) left env ∨
          sys.Leaves (sys.childStatus env.vars .right right) right env := by
  refine ⟨fun cmd isOutput fileName append => ?_, fun left right => ?_⟩
  · rw [status_redirect, leaves_iff]
    exact eq_comm
  · have hne := sys.childStatus_ne_zero env.vars .right right
    rw [status_pipe, leaves_iff, leaves_iff]
    dsimp only
    omega

/-- A system whose only program succeeds, and without signals. -/
def allTrue : System Unit := ⟨fun _ _ => .program (.exited 0), fun _ _ => true, fun _ _ _ => none⟩

def trueCmd : ShellAst := .exec [⟨false, ⟨['t', 'r', 'u', 'e'], false⟩⟩]

/-- The program alone records 0; redirected, or at both ends of a pipe, 127. -/
theorem redirected_true_fails : (allTrue.execAst trueCmd ⟨0, ()⟩).status = 0 ∧
    (allTrue.execAst (.redirect trueCmd true ⟨false, ⟨['f'], false⟩⟩ false) ⟨0, ()⟩).status =
      127 ∧ (allTrue.execAst (.pipe trueCmd trueCmd) ⟨0, ()⟩).status = 127 := by
  refine ⟨by rw [trueCmd, execAst]; rfl, ?_, ?_⟩
  · rw [status_redirect]
    rfl
  · rw [status_pipe]
    rfl

end System
end Redwing.Shell
