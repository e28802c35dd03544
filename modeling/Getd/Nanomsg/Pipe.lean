import Getd.Nanomsg.Usock

/-!
# Pipes

`protocols/utils/excl.c`, with which a `NN_PAIR` socket keeps to one pipe, and
the side of `core/pipe.c` that the transport calls. `nn_sock_add` and
`nn_sock_rm` go through `protocols/pair/xpair.c` to `nn_excl_add` and
`nn_excl_rm`. The counts of statistics are left out.
-/

namespace Nanomsg

/-! ## `excl.c` -/

/-- `nn_excl_add`, `none` for `-EISCONN`. -/
def nnExclAdd (x : Excl) (pipe : Nat) : Option Excl :=
  if x.pipe ≠ none then none else some { x with pipe := some pipe }

def nnExclRm (x : Excl) : Except Assert Excl :=
  if x.pipe = none then .error .excl else .ok ⟨none, none, none⟩

def nnExclIn (x : Excl) (pipe : Nat) : Except Assert Excl :=
  if x.inpipe ≠ none then .error .excl
  else if x.pipe ≠ some pipe then .error .excl
  else .ok { x with inpipe := some pipe }

def nnExclOut (x : Excl) (pipe : Nat) : Except Assert Excl :=
  if x.outpipe ≠ none then .error .excl
  else if x.pipe ≠ some pipe then .error .excl
  else .ok { x with outpipe := some pipe }

/-! ## `pipe.c` -/

/-- `nn_pipebase_start`, and whether it returns 0. -/
def nnPipebaseStart (w : World) : Except Assert (World × Bool) :=
  if w.conn.pipebase.state ≠ .idle then .error .pipebase
  else
    let p := { w.conn.pipebase with state := .active, instate := .async, outstate := .idle }
    match nnExclAdd w.excl w.self with
    | none => .ok (w.setPipebase { p with state := .failed }, false)
    | some x => do
      let w := { w.setPipebase p with excl := x, attached := w.attached ++ [w.self] }
      return (← w.raise (.pipe .pipeOut), true)

def nnPipebaseStop (w : World) : Except Assert World :=
  let stopped := w.setPipebase { w.conn.pipebase with state := .idle }
  if w.conn.pipebase.state = .active then do
    return { stopped with excl := ← nnExclRm w.excl }
  else .ok stopped

def nnPipebaseReceived (w : World) : Except Assert World :=
  match w.conn.pipebase.instate with
  | .receiving => .ok (w.setPipebase { w.conn.pipebase with instate := .received })
  | .async => (w.setPipebase { w.conn.pipebase with instate := .idle }).raise (.pipe .pipeIn)
  | .deactivated | .idle | .received => .error .pipebase

def nnPipebaseSent (w : World) : Except Assert World :=
  match w.conn.pipebase.outstate with
  | .sending => .ok (w.setPipebase { w.conn.pipebase with outstate := .sent })
  | .async => (w.setPipebase { w.conn.pipebase with outstate := .idle }).raise (.pipe .pipeOut)
  | .deactivated | .idle | .sent => .error .pipebase

end Nanomsg
