import Mathlib.Logic.Function.Basic
import Mathlib.Data.List.Nodup
import Mathlib.Algebra.Group.Nat.Defs
import EdgeProxy.Base.Error

/-! # Buffer pools

The pools of `prx_buffer.c`, with a list of free buffers and a list of those checked out. A dynamic pool allocates
every buffer on its own, a fixed pool blocks of them.
-/
namespace EdgeProxy.Buffer
open Base Function

/-- A buffer in memory: the allocation it is part of, and its position in it. -/
structure Address where
  block : ℕ
  index : ℕ
deriving DecidableEq, Inhabited

def sizeSub (a b : ℕ) : ℕ :=
  if b ≤ a then a - b else a + 2 ^ 64 - b

structure PoolConfig where
  initialCount : ℕ
  maxCount : ℕ
  lowWatermark : ℕ
  highWatermark : ℕ
  cb : Bool
deriving DecidableEq

def PoolConfig.init (config : Option PoolConfig) : PoolConfig :=
  let config := config.getD ⟨0,0,0,0,false⟩
  let config := if config.initialCount = 0 then { config with initialCount := 10 } else config
  let config :=
    if config.lowWatermark > config.highWatermark then { config with lowWatermark := 0 } else config
  if config.maxCount ≠ 0 ∧ config.highWatermark > config.maxCount then
    { config with highWatermark := config.maxCount }
  else config

inductive PoolKind where
  | dynamic
  | fixed
deriving DecidableEq

/-- `prx_buffer_pool_t`. `refs` and `length` are the headers of the buffers; `signals` are the calls of the callback,
low memory being `true`. -/
structure Pool where
  kind : PoolKind
  config : PoolConfig
  itemSize : ℕ
  freeList : List Address
  freeCount : ℕ
  checkedOut : List Address
  count : ℕ
  empty : Bool
  refs : Address → ℕ
  length : Address → ℕ
  signals : List Bool

def Pool.growItems (p : Pool) : ℕ :=
  if p.config.maxCount ≠ 0 then min (sizeSub p.config.maxCount p.count) p.config.initialCount
  else p.config.initialCount
def Pool.addBuffer (p : Pool) (a : Address) : Pool :=
  { p with
    refs := update p.refs a 0
    length := update p.length a p.itemSize
    freeList := p.freeList ++ [a]
    count := p.count + 1
    freeCount := p.freeCount + 1 }

/-- The loop of `prx_dynamic_pool_grow_no_lock` for a number of items; `memory` are the results of `mem_alloc`. -/
def growDynamic : ℕ → List (Option ℕ) → Pool → Pool
  | items + 1, some block :: memory, p => growDynamic items memory (p.addBuffer ⟨block,0⟩)
  | _, _, p => p

def growFixed (block : ℕ) : ℕ → ℕ → Pool → Pool
  | 0, _, p => p
  | items + 1, index, p => growFixed block items (index + 1) (p.addBuffer ⟨block,index⟩)
def Pool.grow (p : Pool) (memory : List (Option ℕ)) : Pool :=
  match p.kind with
  | .dynamic => growDynamic p.growItems memory p
  | .fixed =>
    match memory with
    | some block :: _ => growFixed block p.growItems 0 p
    | _ => p

/-- `prx_dynamic_pool_create` and `prx_fixed_pool_create`, which fail if the pool cannot grow at first. -/
def poolCreate (kind : PoolKind) (config : Option PoolConfig) (itemSize : ℕ) (memory : List (Option ℕ)) :
    Option Pool :=
  let p : Pool := {
    kind
    config := .init config
    itemSize
    freeList := []
    freeCount := 0
    checkedOut := []
    count := 0
    empty := false
    refs := fun _ => 0
    length := fun _ => 0
    signals := [] }
  let p := p.grow memory
  if p.freeCount = 0 then none else some p

def Pool.signal (p : Pool) (low : Bool) : Pool :=
  { p with signals := p.signals ++ if p.config.cb then [low] else [] }
def Pool.checkOut (p : Pool) (out : Address) : Pool :=
  let signal : Bool := p.freeCount ≤ p.config.lowWatermark ∧ ¬p.empty
  let p := { p with
    empty := p.empty || signal
    refs := update p.refs out (p.refs out + 1)
    checkedOut := p.checkedOut ++ [out] }
  if signal then p.signal true else p

/-- `prx_buffer_pool_alloc_buffer` without an original; the pool grows when its last free buffer is taken. -/
def Pool.allocBuffer (p : Pool) (memory : List (Option ℕ)) : Pool × Option Address :=
  match p.freeList with
  | [] => (p,none)
  | out :: rest =>
    let p := { p with freeList := rest, freeCount := sizeSub p.freeCount 1 }
    let p := if p.freeCount = 0 then p.grow memory else p
    (p.checkOut out,some out)

def Pool.addRef (p : Pool) (a : Address) : Pool :=
  { p with refs := update p.refs a (p.refs a + 1) }
def Pool.freeBuffer (p : Pool) (a : Address) : Pool :=
  let refs := sizeSub (p.refs a) 1
  let p := { p with refs := update p.refs a refs }
  if refs ≠ 0 then p
  else
    let p := { p with
      checkedOut := p.checkedOut.erase a
      freeList := p.freeList ++ [a]
      freeCount := p.freeCount + 1 }
    if p.freeCount > p.config.highWatermark ∧ p.empty then { p with empty := false }.signal false else p

/-- `prx_dynamic_buffer_set_size` and `prx_fixed_buffer_set_size`; `memory` is the result of `mem_realloc`, which copies
the header of the buffer. The buffer is the same one if it is not moved. -/
def Pool.setSize (p : Pool) (a : Address) (size : ℕ) (memory : Option ℕ) : Pool × Except PrxError Address :=
  match p.kind with
  | .fixed => (p,.error .notSupported)
  | .dynamic =>
    match memory with
    | none => ({ p with checkedOut := p.checkedOut.erase a ++ [a] },.error .outOfMemory)
    | some block =>
      let buf : Address := ⟨block,0⟩
      ({ p with
        checkedOut := p.checkedOut.erase a ++ [buf]
        refs := update (update p.refs a 0) buf (p.refs a)
        length := update p.length buf size },.ok buf)

def Pool.prxBufferNew (p : Pool) (size : ℕ) (memory : List (Option ℕ)) (moved : Option ℕ) : Pool × Option Address :=
  match p.allocBuffer memory with
  | (p,none) => (p,none)
  | (p,some b) =>
    match p.setSize b size moved with
    | (p,.ok b) => (p,some b)
    | (p,.error _) => (p.freeBuffer b,none)

end EdgeProxy.Buffer
