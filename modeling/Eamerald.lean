import Eamerald.Bolt.RelationMap
import Eamerald.Concurrency.Conformance
import Eamerald.Concurrency.Coherence
import Eamerald.Concurrency.ManifestMatch
import Eamerald.Concurrency.Durability
import Eamerald.Datasync.WatermarkProperties
import Eamerald.Datasync.Failures
import Eamerald.Authorizer.LoggedPolicy
import Eamerald.Authorizer.QueryCache
import Eamerald.Authentication.Middleware
import Eamerald.Edge.SchedulerProperties
import Eamerald.Migrations.Restarts
import Eamerald.Datasync.ManifestEtag
import Eamerald.Command.ManifestUpload
import Eamerald.Migrations.Truth
import Eamerald.Directory.RelationPaging
import Eamerald.Directory.AccessProperties
import Eamerald.Adl.LoggerProperties
import Eamerald.Directory.ImportCounters
import Eamerald.Git.Refs
import Eamerald.Directory.StatsExactness
import Eamerald.Directory.SetResponses
import Eamerald.Directory.ObjectViews
import Eamerald.Edge.Configuration
import Eamerald.Command.Extraction
import Eamerald.Command.JsonLines
import Eamerald.Command.JsonFiles
import Eamerald.Header.TraceParent
import Eamerald.Command.TestRunner
import Eamerald.Config.Certificates
import Eamerald.Authorizer.Subjects
