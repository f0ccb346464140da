import Aspm.Reconcile.Projection
import Aspm.Reconcile.Erasure
import Aspm.Reconcile.Repeats
import Aspm.Imports.Frame
import Aspm.Jobs.Backoff
import Aspm.Verification.Publish
import Aspm.Correlation.Offers
import Aspm.Decisions.Assign
import Aspm.Retention.Restored
import Aspm.Install.OldRelease
import Aspm.Install.Resume
import Aspm.Evidence.Store
import Aspm.Install.Resolve
import Aspm.Install.Pinned
import Aspm.Install.Reload
import Aspm.Parsers.Identity
import Aspm.Parsers.Bounds
import Aspm.Parsers.Mapped
import Aspm.Notify.Snapshot
import Aspm.Reports.HandoffLines
import Aspm.Storage.Isolation
import Aspm.Assessment.ContextText
import Aspm.Connectors.NextLink
import Aspm.Connectors.Preview
import Aspm.Verification.Approved
