import Agora.Proofs.Counting
import Agora.Proofs.VoteRecord
import Agora.Settings.Load
import Agora.Proofs.Creation
import Agora.Proofs.Mailbox
import Agora.Proofs.Calendar
import Agora.Proofs.Digits
import Agora.Proofs.Feed
import Agora.Proofs.Thread
import Agora.Proofs.Timestamp
import Agora.Proofs.Lexeme
import Agora.Proofs.Reading
import Agora.Proofs.Record
import Agora.Proofs.Codec
import Agora.Proofs.Line
import Agora.Proofs.Connection
import Agora.Proofs.Effect
import Agora.Proofs.Independence
import Agora.Proofs.Request
import Agora.Proofs.Validity
import Agora.Proofs.Membership
import Agora.Proofs.Exposition
import Agora.Proofs.Layer
import Agora.Proofs.WellFormed
import Agora.Proofs.Variable
import Agora.Proofs.Document
import Agora.Proofs.EnvFile
import Agora.Proofs.Sources
import Agora.Proofs.Startup
import Agora.Proofs.Double
import Agora.Proofs.Nearest
import Agora.Proofs.Shortest
import Agora.Proofs.Number
import Agora.Proofs.Arrival
import Agora.Proofs.Credentials
import Agora.Proofs.Inbox
import Agora.Proofs.Descent
import Agora.Shared
import Agora.Proofs.Shared
import Agora.Proofs.TotalOrder
import Agora.Proofs.Ranking
import Agora.Proofs.Frame
import Agora.Proofs.Listing
import Agora.Proofs.Placement
import Agora.Proofs.Movement
import Agora.Proofs.Session
