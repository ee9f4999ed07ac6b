import Mathlib.Data.List.Induction
import KernelcModerne.Lib.RecentLog

open RecentLog

namespace Kernel.FileSystem

structure ErrorContext where
  operation : String
  path : String
  error_code : Int32
  timestamp : Nat
  deriving DecidableEq

structure ErrorManager where
  error_log : List ErrorContext

namespace ErrorManager

def constructed : ErrorManager where
  error_log := []

def logError (self : ErrorManager) (op path : String) (code : Int32) (now : Nat) : ErrorManager :=
  let error_log := self.error_log ++ [⟨op, path, code, now⟩]
  if error_log.length > 1000 then { error_log := error_log.tail } else { error_log }

def getRecentErrors (self : ErrorManager) (count : Nat) : List ErrorContext :=
  self.error_log.reverse.take (min count self.error_log.length)

/-- The calls of `logError` with these errors. -/
def logged (errors : List ErrorContext) : ErrorManager :=
  errors.foldl (fun self error => self.logError error.operation error.path error.error_code error.timestamp)
    constructed

theorem error_log_logError (self : ErrorManager) (error : ErrorContext) :
    (self.logError error.operation error.path error.error_code error.timestamp).error_log =
      pushTrim 1000 self.error_log error := by
  simp only [logError, pushTrim]
  split <;> rfl

theorem error_log_logged (errors : List ErrorContext) : (logged errors).error_log = recent 1000 errors := by
  induction errors using List.reverseRecOn with
  | nil => exact (recent_nil 1000).symm
  | append_singleton errors error ih =>
    rw [logged, List.foldl_concat, error_log_logError, ← logged, ih, pushTrim_recent]

/-- Whatever was logged, the errors returned are the newest ones, newest first:
as many as asked for, but no more than 1000. -/
theorem getRecentErrors_logged (errors : List ErrorContext) (count : Nat) :
    (logged errors).getRecentErrors count = errors.reverse.take (min count 1000) := by
  have htake : (logged errors).getRecentErrors count = (logged errors).error_log.reverse.take count := by
    rw [getRecentErrors, List.take_eq_take_iff, List.length_reverse]
    omega
  rw [htake, error_log_logged, take_reverse_recent]

end ErrorManager

end Kernel.FileSystem
