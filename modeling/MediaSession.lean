import MediaSession.CommandLine
import MediaSession.Config
import MediaSession.Decimal.Shortest
import MediaSession.Focus
import MediaSession.Format.Config
import MediaSession.Format.Inspection
import MediaSession.Format.Placing
import MediaSession.Format.Report
import MediaSession.Index
import MediaSession.Index.SelfCheck
import MediaSession.Json.Numeral
import MediaSession.Json.Outline
import MediaSession.Json.Reader
import MediaSession.Json.Refusal
import MediaSession.Json.Token
import MediaSession.Json.Value
import MediaSession.Labels
import MediaSession.Ledger
import MediaSession.Main
import MediaSession.MediaObject
import MediaSession.ObjectRef
import MediaSession.Pin
import MediaSession.Placement
import MediaSession.PlacementId
import MediaSession.PlacementRef
import MediaSession.RandomStream.ChaCha
import MediaSession.RandomStream.Words
import MediaSession.Scope
import MediaSession.ScopePath
import MediaSession.Session
import MediaSession.SessionError
import MediaSession.Simulator.Report
import MediaSession.Simulator.Run
import MediaSession.Simulator.World
import MediaSession.StandardModel
import MediaSession.Table
import MediaSession.Text.Blank
import MediaSession.Text.Hex
import MediaSession.Text.Printable
import MediaSession.Text.Quoted
import MediaSession.Time
import MediaSession.Tree
import MediaSession.Workspace
import MediaSession.Proofs.Focus.Cover
import MediaSession.Proofs.Focus.Desk
import MediaSession.Proofs.Focus.FailedPush
import MediaSession.Proofs.Focus.Frames
import MediaSession.Proofs.Focus.Levels
import MediaSession.Proofs.Focus.Manned
import MediaSession.Proofs.Focus.Run
import MediaSession.Proofs.Format.Loading
import MediaSession.Proofs.Format.Placing
import MediaSession.Proofs.Format.RoundTrip
import MediaSession.Proofs.Index.BulkRemoval
import MediaSession.Proofs.Index.Calls
import MediaSession.Proofs.Index.Depth
import MediaSession.Proofs.Index.History
import MediaSession.Proofs.Index.Independence
import MediaSession.Proofs.Index.Renaming
import MediaSession.Proofs.Index.RootReference
import MediaSession.Proofs.Index.Run
import MediaSession.Proofs.Index.SelfCheck
import MediaSession.Proofs.Index.TreeShape
import MediaSession.Proofs.Index.Verdict
import MediaSession.Proofs.Json.Grammar
import MediaSession.Proofs.Json.Outline
import MediaSession.Proofs.Json.Reading
import MediaSession.Proofs.Json.Scanning
import MediaSession.Proofs.Json.Spelling
import MediaSession.Proofs.Navigation.Chain
import MediaSession.Proofs.Navigation.Comparison
import MediaSession.Proofs.Navigation.Longest
import MediaSession.Proofs.Navigation.Navigate
import MediaSession.Proofs.Navigation.Rest
import MediaSession.Proofs.Navigation.Retrace
import MediaSession.Proofs.Navigation.Run
import MediaSession.Proofs.Navigation.Stale
import MediaSession.Proofs.Pin.Resolution
import MediaSession.Proofs.PlacementId.Forms
import MediaSession.Proofs.Results
import MediaSession.Proofs.Simulator.Bookkeeping
import MediaSession.Proofs.Simulator.Likeness
import MediaSession.Proofs.Simulator.Masked
import MediaSession.Proofs.Simulator.Prefix
import MediaSession.Proofs.Simulator.Renaming
import MediaSession.Proofs.Simulator.Run
import MediaSession.Proofs.Simulator.Subtree
import MediaSession.Proofs.Simulator.World
import MediaSession.Proofs.Table.Addition
import MediaSession.Proofs.Table.Conservation
import MediaSession.Proofs.Table.Counting
import MediaSession.Proofs.Table.Lookup
import MediaSession.Proofs.Table.Sweep
import MediaSession.Proofs.Table.Tree
import MediaSession.Proofs.Table.Update
import MediaSession.Proofs.Table.Values
import MediaSession.Proofs.Table.Worklist
import MediaSession.Proofs.Tree.Forest
import MediaSession.Proofs.Tree.Growth
import MediaSession.Proofs.Tree.Likeness
import MediaSession.Proofs.Tree.Lines
import MediaSession.Proofs.Tree.Regular
import MediaSession.Proofs.Tree.Run
import MediaSession.Proofs.Tree.Size
import MediaSession.Proofs.Workspace.Accounting
import MediaSession.Proofs.Workspace.Accounts
import MediaSession.Proofs.Workspace.Calls
import MediaSession.Proofs.Workspace.Effects
import MediaSession.Proofs.Workspace.References
import MediaSession.Proofs.Workspace.Refusals
import MediaSession.Proofs.Workspace.Sound
import MediaSession.Proofs.Workspace.Stock
