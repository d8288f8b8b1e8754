import CatalogDependency.ObjectAddress
import CatalogDependency.PgDepend
import CatalogDependency.Dedup
import CatalogDependency.AddressOps
import CatalogDependency.Walker
import CatalogDependency.RecordExpr
import CatalogDependency.WalkerTermination
import CatalogDependency.Deletion
import CatalogDependency.Frame
import CatalogDependency.Sweep
import CatalogDependency.Closure
import CatalogDependency.Soundness
import CatalogDependency.Reports
import CatalogDependency.Termination
import CatalogDependency.PreScan
import CatalogDependency.Reentry
import CatalogDependency.Corruption
import CatalogDependency.Completeness
import CatalogDependency.MultipleCompleteness
import CatalogDependency.Restrict
import CatalogDependency.Refusals
import CatalogDependency.Sequential
import CatalogDependency.Recorded
import CatalogDependency.Success
