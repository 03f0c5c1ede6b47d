import Boundary.RegionalScopes
import Boundary.RequestIsolation
import Boundary.UnitOfWork
import Boundary.Bypass
import Boundary.AllOrNothing
import Boundary.ForeignTenant
import Boundary.Ready
import Boundary.PerCallBase
import Boundary.TwoExits
import Boundary.Stamping
import Boundary.OneShot
import Boundary.BulkRoutes
import Boundary.CrossTenantFks
import Boundary.Unscoped
import Boundary.ConstraintNames
import Boundary.TaskRuns
import Boundary.RunAll
import Boundary.TenantScoped
import Boundary.Invalidation
import Boundary.CacheEviction
import Boundary.CacheCapacity
import Boundary.CachedResolution
import Boundary.HostGrammar
import Boundary.CollectedSql
import Boundary.SplitAdoption
import Boundary.TenantKeyType
import Boundary.OwnedColumn
import Boundary.NoRaise
import Boundary.Repair
import Boundary.ThroughModels
import Boundary.UniqueForms
import Boundary.UniqueRewrites
import Boundary.RoundTrip
import Boundary.CompositeNames
import Boundary.Noninterference
import Boundary.RegionalDeprovision
import Boundary.DeprovisionUnderRls
import Boundary.DeprovisionReach
import Boundary.MixedRuns
import Boundary.VisibleRows
import Boundary.TaskRows
import Boundary.UnawareInserts
import Boundary.TwoLayers
import Boundary.Checks
import Boundary.CheckFacts
import Boundary.CheckReturns
import Boundary.SilentCheck
import Boundary.AdoptedSettings
import Boundary.ProtectionRuns
import Boundary.RequestRows
import Boundary.MessageRows
import Boundary.EnforcedSuite
import Boundary.RegionWarnings
import Boundary.MigratedRows
import Boundary.CommandRows
