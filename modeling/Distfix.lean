import Distfix.Main
import Distfix.Proofs.BinaryTables
import Distfix.Proofs.Brackets
import Distfix.Proofs.Copies
import Distfix.Proofs.ItemScan
import Distfix.Proofs.NamedScopes
import Distfix.Proofs.OpenStrings
import Distfix.Proofs.Placeholders
import Distfix.Proofs.Ranges
import Distfix.Proofs.Restarting
import Distfix.Proofs.Sentences
import Distfix.Proofs.Shortening
import Distfix.Proofs.Workspaces
