import BidProof.Basic
import BidProof.Lib.Steps
import BidProof.Lib.Table

/-!
# One-time codes

The rows of `auth_challenges` and `auth_delivery_guards` and the functions of the challenge
repository on them: `reserve` stores a challenge unless one was sent to the identifier a moment ago,
`markDelivery` says whether the code has reached the user, and `verify` counts a guess and claims a
correct code.  Each is one transaction.  `ChallengeSystem` runs them in any order with any clock and
keeps every call with its answer.
-/

namespace BidProof.Challenge

/-- The values with which `reserve` inserts a challenge. -/
structure Fields where
  challenge_id : String
  channel : String
  identifier : String
  identifier_digest : String
  code_digest : String
  created_at : Time
  expires_at : Time
  deriving DecidableEq

/-- A row of `auth_challenges`, with primary key `challenge_id`. -/
structure ChallengeRow extends Fields where
  attempts : ℕ := 0
  delivered : ℕ := 0
  consumed_at : Option Time := none
  deriving DecidableEq

def ChallengeRow.key (r : ChallengeRow) : String := r.challenge_id

/-- The row that an insert of the fields stores. -/
def newChallenge (fields : Fields) : ChallengeRow := { toFields := fields }

@[simp] theorem key_newChallenge (fields : Fields) :
    (newChallenge fields).key = fields.challenge_id := rfl

/-- A row of `auth_delivery_guards`. -/
structure DeliveryGuard where
  bucket : String
  sent_at : Time
  deriving DecidableEq

structure ChallengeDb where
  auth_challenges : List ChallengeRow := []
  auth_delivery_guards : List DeliveryGuard := []
  deriving DecidableEq

/-- `n` seconds, in microseconds. -/
def seconds (n : ℕ) : Time := n * 1000000

/-- `timedelta(days=1)` -/
def oneDay : Time := seconds 86400

/-- `OTP_SECONDS` -/
def otpSeconds : ℕ := 300

/-- `RESEND_SECONDS` -/
def resendSeconds : ℕ := 60

/-- The fields with which `request_challenge` reserves a challenge. -/
def requestFields (challenge_id channel identifier identifier_digest code_digest : String)
    (now : Time) : Fields where
  challenge_id := challenge_id
  channel := channel
  identifier := identifier
  identifier_digest := identifier_digest
  code_digest := code_digest
  created_at := now
  expires_at := now + seconds otpSeconds

inductive ReserveResult
  /-- The challenge is stored. -/
  | reserved
  | retryAfter (seconds : ℕ)
  /-- The challenge id is taken, and the transaction is rolled back. -/
  | IntegrityError
  deriving DecidableEq

/-- The unconsumed challenges of an identifier. -/
def outstanding (identifier_digest : String) (r : ChallengeRow) : Bool :=
  r.identifier_digest = identifier_digest && r.consumed_at = none

/-- Resending invalidates every earlier challenge, including a delayed delivery. -/
def supersede (identifier_digest : String) (now : Time) (challenges : List ChallengeRow) :
    List ChallengeRow :=
  Table.update (outstanding identifier_digest)
    (fun r => { r with consumed_at := some now }) challenges

/-- The challenges after the insert; those that are a day old are deleted. -/
def reserveRow (fields : Fields) (now : Time) (challenges : List ChallengeRow) :
    List ChallengeRow :=
  Table.delete (fun r => r.created_at + oneDay < now)
    (supersede fields.identifier_digest now challenges ++ [newChallenge fields])

def reserveGuard (bucket : String) (now : Time) (guards : List DeliveryGuard) :
    List DeliveryGuard :=
  Table.delete (fun g => g.sent_at + oneDay < now)
    (Table.upsert DeliveryGuard.bucket ⟨bucket, now⟩ (fun g => { g with sent_at := now }) guards)

/-- The guard of the identifier is younger than the cooldown. -/
def coolingDown (bucket : String) (now : Time) (cooldown : ℕ) (guards : List DeliveryGuard) :
    Option DeliveryGuard :=
  (Table.get? DeliveryGuard.bucket guards bucket).filter fun g => now < g.sent_at + seconds cooldown

/-- Return retry seconds, or zero after atomically reserving delivery. -/
def reserve (fields : Fields) (now : Time) (cooldown : ℕ) (db : ChallengeDb) :
    ReserveResult × ChallengeDb :=
  match coolingDown fields.identifier_digest now cooldown db.auth_delivery_guards with
  | some g => (.retryAfter (max 1 ((g.sent_at + seconds cooldown - now) / 1000000 + 1)), db)
  | none =>
    if (Table.get? ChallengeRow.key db.auth_challenges fields.challenge_id).isSome then
      (.IntegrityError, db)
    else
      (.reserved, {
        auth_challenges := reserveRow fields now db.auth_challenges
        auth_delivery_guards :=
          reserveGuard fields.identifier_digest now db.auth_delivery_guards })

def ChallengeRow.marked (successful : Bool) (now : Time) (r : ChallengeRow) : ChallengeRow :=
  if successful then { r with delivered := 1 } else { r with consumed_at := some now }

def markDelivery (challenge_id : String) (successful : Bool) (now : Time) (db : ChallengeDb) :
    ChallengeDb :=
  { db with
    auth_challenges := Table.update (fun r => r.key = challenge_id)
      (ChallengeRow.marked successful now) db.auth_challenges }

/-- The most guesses that are counted against a challenge. -/
def maxAttempts : ℕ := 5

/-- A guess at the challenge is counted. -/
def ChallengeRow.guessable (now : Time) (r : ChallengeRow) : Bool :=
  now < r.expires_at && r.consumed_at = none && r.delivered = 1 && r.attempts < maxAttempts

def ChallengeRow.guessed (r : ChallengeRow) : ChallengeRow := { r with attempts := r.attempts + 1 }

inductive VerifyResult
  | locked
  | expired
  | incorrect
  | verified (channel identifier : String)
  deriving DecidableEq

/-- The table after the first statement of `verify`. -/
def guessedRows (challenge_id : String) (now : Time) (challenges : List ChallengeRow) :
    List ChallengeRow :=
  Table.update (fun r => r.key = challenge_id && r.guessable now) ChallengeRow.guessed challenges

def VerifyResult.isVerified : VerifyResult → Bool
  | .verified _ _ => true
  | _ => false

/-- The row that the first statement of `verify` updates and returns. -/
def countGuess (challenge_id : String) (now : Time) (db : ChallengeDb) : Option ChallengeRow :=
  ((Table.get? ChallengeRow.key db.auth_challenges challenge_id).filter
    (ChallengeRow.guessable now)).map ChallengeRow.guessed

/-- Count every guess, claim a correct code once; never return a code digest to callers. -/
def verify (challenge_id submitted_digest : String) (now : Time) (db : ChallengeDb) :
    VerifyResult × ChallengeDb :=
  let guessed := { db with auth_challenges := guessedRows challenge_id now db.auth_challenges }
  match countGuess challenge_id now db with
  | none =>
    let row := Table.get? ChallengeRow.key guessed.auth_challenges challenge_id
    (if row.any fun r => maxAttempts ≤ r.attempts then .locked else .expired, guessed)
  | some snapshot =>
    if snapshot.code_digest ≠ submitted_digest then
      (if maxAttempts ≤ snapshot.attempts then .locked else .incorrect, guessed)
    else
      let p := fun r : ChallengeRow => r.key = challenge_id &&
        (r.consumed_at = none && r.attempts = snapshot.attempts)
      (if Table.rowcount p guessed.auth_challenges = 0 then .expired
        else .verified snapshot.channel snapshot.identifier,
        { guessed with
          auth_challenges := Table.update p (fun r => { r with consumed_at := some now })
            guessed.auth_challenges })

/-! ## Any order of calls -/

inductive Call
  | reserve (fields : Fields) (now : Time) (cooldown : ℕ)
  | markDelivery (challenge_id : String) (successful : Bool) (now : Time)
  | verify (challenge_id submitted_digest : String) (now : Time)
  deriving DecidableEq

/-- A call with the tables that it found. -/
structure LogEntry where
  before : ChallengeDb
  call : Call
  deriving DecidableEq

/-- The tables after the call. -/
def LogEntry.after (e : LogEntry) : ChallengeDb :=
  match e.call with
  | .reserve fields now cooldown => (Challenge.reserve fields now cooldown e.before).2
  | .markDelivery challenge_id successful now =>
    Challenge.markDelivery challenge_id successful now e.before
  | .verify challenge_id submitted_digest now =>
    (Challenge.verify challenge_id submitted_digest now e.before).2

structure ChallengeSystem where
  db : ChallengeDb := {}
  log : List LogEntry := []

/-- One call of the repository. -/
def step (s : ChallengeSystem) (c : Call) : Option ChallengeSystem :=
  some ⟨LogEntry.after ⟨s.db, c⟩, s.log ++ [⟨s.db, c⟩]⟩

/-! ## What a call has done -/

/-- The challenge that the call has stored. -/
def LogEntry.stored (e : LogEntry) : Option Fields :=
  match e.call with
  | .reserve fields now cooldown =>
    if (Challenge.reserve fields now cooldown e.before).1 = .reserved then some fields else none
  | _ => none

/-- The call has stored a challenge with the given id. -/
def LogEntry.stores (challenge_id : String) (e : LogEntry) : Bool :=
  e.stored.any (·.challenge_id = challenge_id)

/-- The call has stored a challenge of the identifier. -/
def LogEntry.renews (identifier_digest : String) (e : LogEntry) : Bool :=
  e.stored.any (·.identifier_digest = identifier_digest)

/-- The call is a guess that has been counted. -/
def LogEntry.counts (challenge_id : String) (e : LogEntry) : Bool :=
  match e.call with
  | .verify id _ now => id = challenge_id && (countGuess id now e.before).isSome
  | _ => false

/-- The call has verified the challenge. -/
def LogEntry.verifies (challenge_id : String) (e : LogEntry) : Bool :=
  match e.call with
  | .verify id digest now =>
    id = challenge_id && (Challenge.verify id digest now e.before).1.isVerified
  | _ => false

/-- The call has marked the delivery of the code, as made or as failed. -/
def LogEntry.marks (challenge_id : String) (successful : Bool) (e : LogEntry) : Bool :=
  match e.call with
  | .markDelivery id ok _ => id = challenge_id && ok = successful
  | _ => false

/-- The clock reading of the call. -/
def Call.now : Call → Time
  | .reserve _ now _ => now
  | .markDelivery _ _ now => now
  | .verify _ _ now => now

end BidProof.Challenge
