import Premerge.Data.Record
import Premerge.Data.Timestamp
import Premerge.Digest.Sha256
import Premerge.World.Path

namespace Premerge

open Premerge.Data
open Premerge.Text.Utf8 (Octets encode)
open Premerge.World (Path)

def version : String := "0.1.0"

structure Job where
  id : String
  pr : Option String
  repository : Path
  base : String
  headSha : String
  mergeBase : String
  toolsDigest : String
  startedAt : Timestamp
  deriving DecidableEq, Repr

namespace Job

def hexDigits (width n : Nat) : List Char :=
  let digits := Nat.toDigits 16 n
  List.replicate (width - digits.length) '0' ++ digits

def digitGroup (digits : List Char) (start stop : Nat) : List Char :=
  (digits.drop start).take (stop - start)

/-- An id of 122 random bits, marked as random by its version and variant. -/
def idOfBits (bits : Nat) : String :=
  let digits := hexDigits 32 (bits % Nat.pow 2 128)
  let variant := hexDigits 1 (8 + bits / Nat.pow 2 62 % 4)
  String.ofList (digitGroup digits 0 8 ++ ['-'] ++ digitGroup digits 8 12 ++ ['-', '4']
    ++ digitGroup digits 13 16 ++ ['-'] ++ variant ++ digitGroup digits 17 20 ++ ['-']
    ++ digitGroup digits 20 32)

def digestInput (names : List String) : Octets :=
  names.flatMap fun name => encode name ++ [0]

def digest (names : List String) : String :=
  Digest.Sha256.hex (digestInput names)

def unknownPr : String := "-"

def environment (job : Job) : List (String × String) :=
  [("job_id", job.id), ("pr", job.pr.getD unknownPr), ("repo", job.repository),
    ("base", job.base), ("head_sha", job.headSha), ("merge_base", job.mergeBase),
    ("tools_digest", job.toolsDigest), ("started_at", job.startedAt.textWithOffset),
    ("prgate_version", version)]

def decoder : Decoder Job := fun reading value => do
  let fields ← Fields.ofValue reading ["job_id", "pr", "repo", "base", "head_sha", "merge_base",
    "tools_digest", "started_at"] value
  let id ← fields.required reading "job_id" .text
  let pr ← fields.optional reading "pr" .text
  let repository ← fields.required reading "repo" .text
  let base ← fields.required reading "base" .text
  let headSha ← fields.required reading "head_sha" .text
  let mergeBase ← fields.required reading "merge_base" .text
  let toolsDigest ← fields.required reading "tools_digest" .text
  let startedAt ← Timestamp.read (← fields.required reading "started_at" .text)
  some { id, pr, repository, base, headSha, mergeBase, toolsDigest, startedAt }

def toValue (job : Job) : Value :=
  .table [("job_id", .text job.id), ("pr", .optional .text job.pr),
    ("repo", .text job.repository), ("base", .text job.base), ("head_sha", .text job.headSha),
    ("merge_base", .text job.mergeBase), ("tools_digest", .text job.toolsDigest),
    ("started_at", .text job.startedAt.text)]

end Job

end Premerge
