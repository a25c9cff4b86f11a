import Apokryphos.BlockPaths
import Apokryphos.StartupProbe
import Apokryphos.TokenValidation

/-!
The events of the emitters: those of the start and the end, of the requests and of
the guards. An event has exactly the fields of its constructor, none of them a
token, a proof or the bytes of a block. The diagnostics that refreshes write
directly are left out; the two lines that `run` and `main` write are with the start.
-/
namespace LogEvents
open BlockStorage PathTexts ServerConfig StartupProbe TokenValidation

inductive ShutdownSignal where
  | sigint
  | sigterm
  | sighup
  deriving DecidableEq, Repr

def ShutdownSignal.name : ShutdownSignal → String
  | .sigint => "SIGINT"
  | .sigterm => "SIGTERM"
  | .sighup => "SIGHUP"

def BackendFailureCause.asStr : BackendFailureCause → String
  | .diskFull => "disk_full"
  | .permissionDenied => "permission_denied"
  | .ioError => "io_error"

def StorageInitError.step : StorageInitError → String
  | .rootMissing _ => "metadata"
  | .rootNotDirectory _ => "is_dir"
  | .rootNotWritable _ _ => "probe_write"

def StorageInitError.cause : StorageInitError → String
  | .rootMissing _ | .rootNotDirectory _ => "io_error"
  | .rootNotWritable _ source => BackendFailureCause.asStr (LocalFs.classify source)

/-- The data of a failure does not show in its category. -/
def AuthFailure.category : AuthFailure → String
  | .missingToken => "auth.token.missing"
  | .missingProof => "auth.dpop.missing"
  | .invalidAlg => "auth.alg.disallowed"
  | .tokenSignatureInvalid => "auth.token.bad_signature"
  | .tokenIssuerMismatch => "auth.token.iss_mismatch"
  | .tokenAudienceMismatch => "auth.token.aud_mismatch"
  | .tokenExpired => "auth.token.expired"
  | .tokenNotYetValid => "auth.token.nbf_future"
  | .tokenMissingClaim _ => "auth.token.missing_claim"
  | .proofSignatureInvalid => "auth.dpop.bad_signature"
  | .proofHtmMismatch => "auth.dpop.htm_mismatch"
  | .proofHtuMismatch => "auth.dpop.htu_mismatch"
  | .proofIatStale => "auth.dpop.iat_stale"
  | .proofJktMismatch => "auth.dpop.jkt_mismatch"
  | .proofAthMismatch => "auth.dpop.ath_mismatch"
  | .proofReplayed => "auth.dpop.replayed"
  | .proofMissingClaim _ => "auth.dpop.missing_claim"
  | .jwksRefreshFailed => "auth.jwks.refresh_failed"
  | .memoryPressure => "auth.replay.memory_pressure"

structure BlockFields where
  blockId : String
  subject : String
  address : IpAddr
  deriving DecidableEq

inductive LogEvent where
  | serverStarted (boundAddr : SocketAddr)
  | shutdownInitiated (signal : String) (drainTimeoutSecs : UInt64)
  | shutdownCompleted (drainedCleanly : Bool)
  | requestRejected (method path : String) (effectiveAddr : IpAddr)
  | storageReady (rootPath : PathText)
  | storageFailed (rootPath : PathText) (step cause : String)
  | putOk (fields : BlockFields) (sizeBytes : UInt64)
  | putBackendFailed (fields : BlockFields) (cause : String)
  | getHit (fields : BlockFields)
  | getMiss (fields : BlockFields)
  | getBackendFailed (fields : BlockFields) (cause : String)
  | deleteOk (fields : BlockFields)
  | deleteBackendFailed (fields : BlockFields) (cause : String)
  | authFailure (category audience : String) (client : IpAddr)
  deriving DecidableEq

def LogEvent.block : LogEvent → Option BlockFields
  | .putOk fields _ | .putBackendFailed fields _ | .getHit fields | .getMiss fields
  | .getBackendFailed fields _ | .deleteOk fields | .deleteBackendFailed fields _ => some fields
  | .serverStarted _ | .shutdownInitiated _ _ | .shutdownCompleted _ | .requestRejected _ _ _
  | .storageReady _ | .storageFailed _ _ _ | .authFailure _ _ _ => none

def blockIdMalformed : String := "<malformed>"

def logFailure (failure : AuthFailure) (effectiveAddress : IpAddr) (audience : AudienceTag) : LogEvent :=
  .authFailure (AuthFailure.category failure) audience.name effectiveAddress

def emitStorageStartupFailed (e : StorageInitError) : LogEvent :=
  .storageFailed e.rootPath (StorageInitError.step e) (StorageInitError.cause e)

end LogEvents
