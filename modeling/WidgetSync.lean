import WidgetSync.Main
import WidgetSync.Metadata
import WidgetSync.Json.Record
import WidgetSync.Model.Summary
import WidgetSync.Proofs.Manager.Life
import WidgetSync.Proofs.Manager.Subtree
import WidgetSync.Proofs.Manager.Routine
import WidgetSync.Proofs.Manager.Protocol
import WidgetSync.Proofs.Manager.Freshness
import WidgetSync.Proofs.Manager.Exchange
import WidgetSync.Proofs.Manager.Shelving
import WidgetSync.Proofs.Model.Mirror
import WidgetSync.Proofs.Manager.Showing
import WidgetSync.Proofs.Manager.Independence
import WidgetSync.Proofs.Manager.Page
import WidgetSync.Proofs.Manager.Update
import WidgetSync.Proofs.Manager.Routing
import WidgetSync.Proofs.Manager.Failure
import WidgetSync.Proofs.Session.RoundTrip
import WidgetSync.Proofs.View.Number
import WidgetSync.Proofs.Session.Layout
import WidgetSync.Proofs.Manager.Likeness
import WidgetSync.Proofs.View.Cascade
import WidgetSync.Proofs.View.Redraw
import WidgetSync.Proofs.Manager.Response
import WidgetSync.Proofs.Metadata
import WidgetSync.Proofs.Notebook.History
import WidgetSync.Proofs.View.Visibility
import WidgetSync.Proofs.Metadata.Dialog
import WidgetSync.Proofs.Element.Preorder
