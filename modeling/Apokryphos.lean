import Apokryphos.AudienceInterference
import Apokryphos.AudienceIsolation
import Apokryphos.BackgroundTasks
import Apokryphos.BlindStorage
import Apokryphos.BlockPaths
import Apokryphos.BlockRegister
import Apokryphos.BlockRoutes
import Apokryphos.BlockStorage
import Apokryphos.Bootstrap
import Apokryphos.CacheIntegrity
import Apokryphos.ConcurrentBlocks
import Apokryphos.ConfigLoading
import Apokryphos.ConfigSources
import Apokryphos.ConfiguredChecks
import Apokryphos.Digests
import Apokryphos.DiskSites
import Apokryphos.DistinctDigests
import Apokryphos.FileSystems
import Apokryphos.ForwardedHeaders
import Apokryphos.GuardedRequests
import Apokryphos.InstallOrder
import Apokryphos.KeyIndices
import Apokryphos.KeyIsolation
import Apokryphos.KeyRotation
import Apokryphos.KeyThumbprints
import Apokryphos.KeyUpdates
import Apokryphos.LocalFs
import Apokryphos.LogEvents
import Apokryphos.MachineWords
import Apokryphos.OidcContexts
import Apokryphos.Outcomes
import Apokryphos.OverwritingIndex
import Apokryphos.PathTexts
import Apokryphos.PeriodicLoops
import Apokryphos.PowerFailures
import Apokryphos.Processes
import Apokryphos.ProofReplay
import Apokryphos.ProofValidation
import Apokryphos.ProxyTrust
import Apokryphos.RateLimit
import Apokryphos.RefreshClaims
import Apokryphos.RefreshCompletion
import Apokryphos.RefreshTasks
import Apokryphos.RejectedRequests
import Apokryphos.ReplayRefinement
import Apokryphos.ReplayStore
import Apokryphos.RequestGuards
import Apokryphos.RequestProgress
import Apokryphos.SealedFiles
import Apokryphos.SerialBlocks
import Apokryphos.SerialOrders
import Apokryphos.ServedRequests
import Apokryphos.ServerConfig
import Apokryphos.Shutdowns
import Apokryphos.SigningKeys
import Apokryphos.SiteAnswers
import Apokryphos.SiteRoutes
import Apokryphos.StartupProbe
import Apokryphos.StepRuns
import Apokryphos.StoredBlocks
import Apokryphos.Texts
import Apokryphos.TokenValidation
import Apokryphos.UrlTexts
