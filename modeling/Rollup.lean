import Rollup.Json.Query
import Rollup.Proofs.Constants
import Rollup.Proofs.PlainGroups
import Rollup.Proofs.Provided
import Rollup.Proofs.Reads
import Rollup.Proofs.Rewriting
import Rollup.Proofs.RowsAlone
import Rollup.Proofs.Scripts
import Rollup.Pushdown.Hybrid
import Rollup.Settings.Toml
import Rollup.Proofs.ColumnChains
import Rollup.Proofs.Schema
import Rollup.Proofs.Agreement
import Rollup.Proofs.IdentityExpansion
import Rollup.Proofs.Fusion
import Rollup.Proofs.NulledGroups
import Rollup.Proofs.HostTypes
import Rollup.Proofs.ListOrder
import Rollup.Proofs.LetterCase
import Rollup.Proofs.WireForm
import Rollup.Proofs.DroppedCasts
import Rollup.Proofs.Overrides
import Rollup.Proofs.Renames
import Rollup.Proofs.Resolution
import Rollup.Proofs.Alternatives
import Rollup.Proofs.TimeCasts
import Rollup.Proofs.Aliases
import Rollup.Proofs.Substitution
