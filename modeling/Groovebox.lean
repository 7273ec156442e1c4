import Groovebox.Panel.Editor
import Groovebox.Panel.StepGrid
import Groovebox.Panel.TransportBar
import Groovebox.Sequencer.Describe
import Groovebox.Sequencer.Run
import Groovebox.Session.Live
import Groovebox.Settings.Store
import Groovebox.Proofs.Runs
import Groovebox.Proofs.Loops
import Groovebox.Proofs.Consistency
import Groovebox.Proofs.Grid
import Groovebox.Proofs.PollWindow
import Groovebox.Proofs.TickOrder
import Groovebox.Proofs.StepGroups
import Groovebox.Proofs.LiveSwap
import Groovebox.Proofs.NoteQueue
import Groovebox.Proofs.Timeliness
import Groovebox.Proofs.Performance
import Groovebox.Proofs.Frames
import Groovebox.Proofs.TakingBack
import Groovebox.Proofs.Refusals
import Groovebox.Proofs.RenderSteps
import Groovebox.Proofs.BufferSizes
import Groovebox.Proofs.NoteFates
import Groovebox.Proofs.StartOrder
import Groovebox.Proofs.Clearing
import Groovebox.Proofs.Playable
import Groovebox.Proofs.Statuses
import Groovebox.Proofs.TempoChanges
import Groovebox.Proofs.ExtraPolls
import Groovebox.Proofs.LostTicks
import Groovebox.Proofs.Words
import Groovebox.Proofs.LineGrammar
import Groovebox.Proofs.LineFaults
import Groovebox.Proofs.Layout
import Groovebox.Proofs.RoundTrip
import Groovebox.Proofs.BlockParts
import Groovebox.Proofs.DrumVoices
import Groovebox.Proofs.StolenVoices
import Groovebox.Proofs.CyclePass
import Groovebox.Proofs.LastTempo
import Groovebox.Proofs.PitchNames
import Groovebox.Proofs.Restarts
import Groovebox.Proofs.SessionLoop
import Groovebox.Proofs.BlockNotes
import Groovebox.Proofs.MissedTicks
import Groovebox.Proofs.TempoMap
