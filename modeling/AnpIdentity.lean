import AnpIdentity.Serial
import AnpIdentity.ProviderThreads
import AnpIdentity.Eviction
import AnpIdentity.Ledger.Revocation
import AnpIdentity.Ledger.Creations
import AnpIdentity.Ledger.Refusals
import AnpIdentity.TransitionProgress
import AnpIdentity.Reconciliation
import AnpIdentity.Custody
import AnpIdentity.OwnUpdates
import AnpIdentity.Legibility
import AnpIdentity.Rejections
import AnpIdentity.Descriptors
import AnpIdentity.Ledger.Storage
import AnpIdentity.KeyStore
