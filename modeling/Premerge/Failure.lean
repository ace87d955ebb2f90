import Premerge.Change.Glob
import Premerge.CommitMessage
import Premerge.Text.Quoted
import Premerge.World.FileTree

namespace Premerge

open Premerge.Change.Glob (PatternError)
open Premerge.Text.Quoted (quoted)
open Premerge.World (Path SystemError)

inductive GitFault where
  | notStarted (cause : SystemError)
  | failed (arguments : List String) (complaint : String)
  | noRevision (revision : String)
  | truncated (code : String)
  | other (text : String)
  deriving DecidableEq, Repr

def GitFault.message : GitFault → String
  | .notStarted cause => "failed to run git: " ++ cause.message
  | .failed arguments complaint => "git " ++ " ".intercalate arguments ++ " failed: " ++ complaint
  | .noRevision revision => "git rev-parse " ++ revision ++ " returned empty output"
  | .truncated code => "truncated name-status output after " ++ quoted code
  | .other text => text

inductive ConfigFault where
  | unreadable (path : Path) (cause : SystemError)
  | malformed
  | unknownPredicate (tool predicate : String)
  | noPlace (fragment tool : String)
  | noTime
  | emptyCommand (tool : String)
  | duplicateTool (name : String)
  | duplicateReport (name : String)
  | badGlob (predicate glob : String) (cause : PatternError)
  | duplicatePredicate (name : String)
  | unknownService (name : String)
  | other (text : String)
  | inFile (path : Path) (fault : ConfigFault)
  deriving DecidableEq, Repr

def ConfigFault.heading : String := "configuration error: "

def ConfigFault.message : ConfigFault → String
  | .unreadable path cause => "cannot read " ++ path ++ ": " ++ cause.message
  | .malformed => "the text is not a valid configuration"
  | .unknownPredicate tool predicate =>
    "tool " ++ tool ++ " references unknown predicate " ++ predicate
  | .noPlace fragment tool =>
    "summary_order has no place for fragment " ++ fragment ++ " of tool " ++ tool
  | .noTime => "job_timeout_secs must be greater than zero"
  | .emptyCommand tool => "tool " ++ tool ++ " has an empty command"
  | .duplicateTool name => "duplicate tool name: " ++ name
  | .duplicateReport name => "duplicate report name: " ++ name
  | .badGlob predicate glob cause =>
    "predicate " ++ predicate ++ ": invalid glob " ++ quoted glob ++ ": " ++ cause.message
  | .duplicatePredicate name => "duplicate predicate name: " ++ name
  | .unknownService name => "unknown service: " ++ name
  | .other text => text
  | .inFile path fault => path ++ ": " ++ heading ++ fault.message

inductive ServiceFault where
  | notStarted (cause : SystemError)
  | upFailed (service complaint : String)
  | downFailed (complaint : String)
  | other (text : String)
  deriving DecidableEq, Repr

def ServiceFault.message : ServiceFault → String
  | .notStarted cause => "failed to run docker compose: " ++ cause.message
  | .upFailed service complaint => "docker compose up " ++ service ++ " failed: " ++ complaint
  | .downFailed complaint => "docker compose rm failed: " ++ complaint
  | .other text => text

inductive ReportFault where
  | unreadable (path : Path) (cause : SystemError)
  | notEmpty (path : Path)
  | notCreated (path : Path) (cause : SystemError)
  | notADirectory (path : Path)
  | unwritable (path : Path) (cause : SystemError)
  | other (text : String)
  deriving DecidableEq, Repr

def ReportFault.message : ReportFault → String
  | .unreadable path cause => "cannot read " ++ path ++ ": " ++ cause.message
  | .notEmpty path => path ++ " already contains reports"
  | .notCreated path cause => "cannot create " ++ path ++ ": " ++ cause.message
  | .notADirectory path => path ++ " is not a directory"
  | .unwritable path cause => "cannot write " ++ path ++ ": " ++ cause.message
  | .other text => text

inductive Failure where
  | longLines (limit : Nat) (lines : List LongLine)
  | serviceNotReady (service : String) (seconds : Nat)
  | tool (name reason : String)
  | migration (name reason : String)
  | deadline (seconds : Nat) (aborted : List String)
  | git (fault : GitFault)
  | config (fault : ConfigFault)
  | service (fault : ServiceFault)
  | report (fault : ReportFault)
  | system (cause : SystemError)
  deriving DecidableEq, Repr

namespace Failure

def message : Failure → String
  | .longLines limit lines =>
    "commit message has " ++ toString lines.length ++ " line(s) longer than " ++ toString limit
      ++ " characters: " ++ "; ".intercalate (lines.map LongLine.message)
  | .serviceNotReady name seconds =>
    "service " ++ name ++ " was not ready after " ++ toString seconds ++ "s"
  | .tool name reason => "tool " ++ name ++ " failed: " ++ reason
  | .migration name reason => "migration check " ++ name ++ " failed: " ++ reason
  | .deadline seconds aborted =>
    "job deadline of " ++ toString seconds ++ "s exceeded, aborted: " ++ ", ".intercalate aborted
  | .git fault => "git error: " ++ fault.message
  | .config fault => ConfigFault.heading ++ fault.message
  | .service fault => "service error: " ++ fault.message
  | .report fault => "report directory error: " ++ fault.message
  | .system cause => "io error: " ++ cause.message

def cause? : Failure → Option String
  | .system cause => some cause.message
  | _ => none

/-- Whether the failure ends a job before anything is reported. -/
def abortsJob : Failure → Bool
  | .longLines _ _ | .serviceNotReady _ _ => true
  | _ => false

end Failure

def CommitMessage.check (message : CommitMessage) (limit : Nat) : Except Failure Unit :=
  match message.longLines limit with
  | [] => .ok ()
  | lines => .error (.longLines limit lines)

end Premerge
