import Diagrams.CommandLine.Stages
import Diagrams.Json.Printer
import Diagrams.Main
import Diagrams.Service.Respond
import Diagrams.Proofs.Reading.Integrity
import Diagrams.Proofs.Graph.Reach
import Diagrams.Proofs.Graph.Levels
import Diagrams.Proofs.Graph.Widths
import Diagrams.Proofs.Graph.Search
import Diagrams.Proofs.Layout.Columns
import Diagrams.Proofs.Layout.Overlap
import Diagrams.Proofs.Drawio.CellIds
import Diagrams.Proofs.Drawio.Links
import Diagrams.Proofs.Drawio.Document
import Diagrams.Proofs.Reading.Record
import Diagrams.Proofs.Json.Printed
import Diagrams.Proofs.Json.Saved
import Diagrams.Proofs.Reading.Depth
import Diagrams.Proofs.Reading.Plain
import Diagrams.Proofs.CommandLine.Task
import Diagrams.Proofs.CommandLine.Stages
import Diagrams.Proofs.Reading.Content
import Diagrams.Proofs.Flowchart.Program
import Diagrams.Proofs.Drawio.Picture
import Diagrams.Proofs.Layout.Places
import Diagrams.Proofs.Sequence.Script
import Diagrams.Proofs.Entities.Items
import Diagrams.Proofs.Mindmap.Structure
import Diagrams.Proofs.Service.Status
import Diagrams.Proofs.Check.Review
import Diagrams.Proofs.Layout.Branches
import Diagrams.Proofs.Drawio.Positions
import Diagrams.Proofs.CommandLine.FrontEnds
import Diagrams.Proofs.Layout.Flow
import Diagrams.Proofs.CommandLine.Endings
import Diagrams.Proofs.Drawio.WellFormed
import Diagrams.Proofs.Graph.Memory
import Diagrams.Proofs.Layout.Completion
import Diagrams.Proofs.Flowchart.Growth
import Diagrams.Proofs.Check.Names
import Diagrams.Proofs.Layout.Tables
import Diagrams.Proofs.Flowchart.Chained
import Diagrams.Proofs.Drawio.Routes
import Diagrams.Proofs.Layout.Stretch
import Diagrams.Proofs.Drawio.Lifelines
import Diagrams.Proofs.Drawio.Rows
import Diagrams.Proofs.Drawio.Lanes
import Diagrams.Proofs.Page.Tables
import Diagrams.Proofs.Page.Summary
import Diagrams.Proofs.Mindmap.Hierarchy
import Diagrams.Proofs.CommandLine.Refusals
import Diagrams.Proofs.Graph.Descents
import Diagrams.Proofs.Drawio.Requests
