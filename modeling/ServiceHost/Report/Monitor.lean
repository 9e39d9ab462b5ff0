import ServiceHost.Report.Failure
import ServiceHost.Report.Level

/-!
# Monitors — where modules report to

A monitor is a value: the process log, a recorder under a tag, or several monitors at once. What
a report leads to is a list of **reports delivered**, in the order in which the parts of the
monitor receive it, so reporting can be followed without running anything.
-/

set_option autoImplicit false

namespace ServiceHost

/-- Where modules report to. -/
inductive Monitor where
  /-- The process log. -/
  | log
  /-- A recorder that keeps every report under its tag. -/
  | recorder (tag : String)
  /-- Passes every report on to each of several monitors in order. -/
  | several (monitors : List Monitor)
deriving Repr, Inhabited

/-- One report to a monitor. A cause is given by the chain of its messages. -/
structure Report where
  level : Level := .info
  message : String
  cause : Option Failure := none
deriving DecidableEq, Repr

/-- A report as it arrived somewhere. -/
inductive Delivery where
  | recorded (tag : String) (report : Report)
  | logged (level : LogLevel) (message : String)
deriving DecidableEq, Repr

/-- The record that the process log keeps of a report: only a severe report shows its cause. -/
def Report.toRecord (report : Report) : Delivery :=
  match report.level, report.cause with
  | .severe, some cause => .logged .error (report.message ++ ": " ++ cause.chain)
  | level, _ => .logged level.toLogLevel report.message

namespace Monitor

mutual

/-- The deliveries that a report to a monitor leads to. -/
def deliveries (report : Report) : Monitor → List Delivery
  | .log => [report.toRecord]
  | .recorder tag => [.recorded tag report]
  | .several monitors => deliveriesToAll report monitors

/-- The deliveries that a report to several monitors leads to. -/
def deliveriesToAll (report : Report) : List Monitor → List Delivery
  | [] => []
  | monitor :: rest => deliveries report monitor ++ deliveriesToAll report rest

end

/-- Of the monitors that were found none stands for the log, one for itself, and more for all of
them at once. -/
def ofFound : List Monitor → Monitor
  | [] => .log
  | [monitor] => monitor
  | monitors => .several monitors

theorem deliveriesToAll_eq_flatMap (report : Report) (monitors : List Monitor) :
    deliveriesToAll report monitors = monitors.flatMap (deliveries report) := by
  induction monitors with
  | nil => rfl
  | cons monitor rest ih => simp [deliveriesToAll, ih]

end Monitor

end ServiceHost
