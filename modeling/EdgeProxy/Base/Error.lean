import Mathlib.Data.List.Basic

/-! # Error codes

The error enumeration of `prx_err.h`, without success.
-/
namespace EdgeProxy.Base

inductive PrxError where
  | unknown
  | fatal
  | arg
  | fault
  | badState
  | outOfMemory
  | alreadyExists
  | notFound
  | notSupported
  | notImpl
  | permission
  | retry
  | nomore
  | network
  | connecting
  | busy
  | writing
  | reading
  | waiting
  | timeout
  | aborted
  | closed
  | shutdown
  | refused
  | noAddress
  | noHost
  | hostUnknown
  | addressFamily
  | reserved2
  | badFlags
  | invalidFormat
  | diskIo
  | reserved1
  | propGet
  | propSet
  | reset
  | undelivered
  | crypto
  | comm
deriving DecidableEq, Inhabited

def PrxError.code (e : PrxError) : Int32 :=
  .ofInt (-1001 + e.ctorIdx)
def erOk : Int32 := 0

def erRetry : Int32 := PrxError.retry.code
def erAborted : Int32 := PrxError.aborted.code
def erClosed : Int32 := PrxError.closed.code
def erTimeout : Int32 := PrxError.timeout.code
def erFault : Int32 := PrxError.fault.code
def erBadState : Int32 := PrxError.badState.code
def erNotSupported : Int32 := PrxError.notSupported.code
def erInvalidFormat : Int32 := PrxError.invalidFormat.code
def erRefused : Int32 := PrxError.refused.code

/-- How a C function can end other than by success: with an error it returns, or in undefined
behaviour such as a read through a null pointer. -/
inductive Stop where
  | err (e : PrxError)
  | undefined
deriving DecidableEq

end EdgeProxy.Base
